/-
  Foundation/Transaction.lean --- transactions over a store of locked rows.

  A transaction is a program of statements.  A statement reads the store without
  locking, locks a row and reads its latest version, or writes.  The store says
  which rows a write touches; a write locks the rows it touches.  Locks are held
  until the transaction ends, and what a transaction wrote is visible to nobody
  else before it commits.

  THE TWO SEMANTICS.  `Tx.exec` runs a transaction alone.  `Server` runs any
  number of transactions interleaved statement by statement, under row locks and
  READ COMMITTED visibility: an unlocked read is answered by the committed state
  of the moment together with the transaction's own writes.

  THE CONNECTION.  `commit_atomic`: whenever a transaction commits, its writes are
  those of a run of its program against the committed state of that very moment,
  in which the locked rows had the values it saw; only its unlocked reads may have
  been answered by an older committed state.  So an invariant that every program
  keeps when run alone, whatever its unlocked reads return, holds of every
  committed state of every interleaving (`committed_invariant`).
-/
import Nuvonode.Foundation.Machine
import Mathlib.Logic.Function.Basic

set_option autoImplicit false

namespace Nuvonode.Foundation

/-- A store of rows that can be locked, and the writes to it. -/
structure Store where
  /-- The whole contents. -/
  State : Type
  /-- What can be locked. -/
  Key : Type
  /-- What a locked read of a key returns. -/
  Row : Key → Type
  /-- The writes. -/
  Write : Type
  /-- The current version under a key. -/
  get : State → (k : Key) → Row k
  /-- Perform a write. -/
  apply : State → Write → State
  /-- The keys a write locks. -/
  touches : Write → List Key
  /-- A write changes nothing outside the keys it touches. -/
  get_apply_of_not_mem : ∀ s w k, k ∉ touches w → get (apply s w) k = get s k
  /-- The version a write leaves under a key depends on the version it found there. -/
  get_apply_congr : ∀ s s' w k, get s k = get s' k →
    get (apply s w) k = get (apply s' w) k

namespace Store

variable (S : Store)

/-- Perform writes in order. -/
def applyAll (s : S.State) (ws : List S.Write) : S.State := ws.foldl S.apply s

@[simp] theorem applyAll_nil (s : S.State) : S.applyAll s [] = s := rfl

@[simp] theorem applyAll_cons (s : S.State) (w : S.Write) (ws : List S.Write) :
    S.applyAll s (w :: ws) = S.applyAll (S.apply s w) ws := rfl

@[simp] theorem applyAll_append (s : S.State) (ws ws' : List S.Write) :
    S.applyAll s (ws ++ ws') = S.applyAll (S.applyAll s ws) ws' := by
  simp [applyAll]

theorem get_applyAll_congr {s s' : S.State} {k : S.Key} (h : S.get s k = S.get s' k) :
    ∀ ws : List S.Write, S.get (S.applyAll s ws) k = S.get (S.applyAll s' ws) k := by
  intro ws
  induction ws generalizing s s' with
  | nil => exact h
  | cons w ws ih => exact ih (S.get_apply_congr s s' w k h)

theorem get_applyAll_of_not_mem {k : S.Key} :
    ∀ {ws : List S.Write} {s : S.State}, (∀ w ∈ ws, k ∉ S.touches w) →
      S.get (S.applyAll s ws) k = S.get s k := by
  intro ws
  induction ws with
  | nil => intro s _; rfl
  | cons w ws ih =>
      intro s h
      rw [applyAll_cons, ih fun w' hw' => h w' (List.mem_cons_of_mem w hw')]
      exact S.get_apply_of_not_mem s w k (h w List.mem_cons_self)

end Store

/-! ## Transactions -/

/-- A transaction that returns an `α` or fails with an `ε`. -/
inductive Tx (S : Store) (ε α : Type) : Type where
  /-- Return. -/
  | done (a : α)
  /-- Fail; everything the transaction wrote is rolled back. -/
  | fail (e : ε)
  /-- Read without locking. -/
  | read (next : S.State → Tx S ε α)
  /-- Lock a key and read its latest version. -/
  | lock (k : S.Key) (next : S.Row k → Tx S ε α)
  /-- Write, locking what the write touches. -/
  | write (w : S.Write) (next : Tx S ε α)

namespace Tx

variable {S : Store} {ε α β : Type}

/-- Sequencing. -/
def bind : Tx S ε α → (α → Tx S ε β) → Tx S ε β
  | done a, f => f a
  | fail e, _ => fail e
  | read next, f => read fun s => (next s).bind f
  | lock k next, f => lock k fun row => (next row).bind f
  | write w next, f => write w (next.bind f)

instance : Monad (Tx S ε) where
  pure := done
  bind := bind

/-- Returning what was returned changes nothing. -/
theorem bind_pure (p : Tx S ε α) : p >>= pure = p := by
  change p.bind done = p
  induction p with
  | done a => rfl
  | fail e => rfl
  | read next ih => exact congrArg read (funext ih)
  | lock k next ih => exact congrArg (lock k) (funext ih)
  | write w next ih => exact congrArg (write w) ih

/-- The statement `SELECT` without a lock. -/
def query (q : S.State → α) : Tx S ε α := read fun s => done (q s)

/-- The statement `SELECT ... FOR UPDATE` on one key. -/
def lockRow (k : S.Key) : Tx S ε (S.Row k) := lock k done

/-- A statement that only writes. -/
def perform (w : S.Write) : Tx S ε Unit := write w (done ())

/-! ## Running alone -/

/-- Run a transaction with nobody else around: every read is answered by the state
itself, and a failure leaves no state behind. -/
def exec : Tx S ε α → S.State → Except ε (α × S.State)
  | done a, s => .ok (a, s)
  | fail e, _ => .error e
  | read next, s => (next s).exec s
  | lock k next, s => (next (S.get s k)).exec s
  | write w next, s => next.exec (S.apply s w)

@[simp] theorem exec_pure (a : α) (s : S.State) :
    (pure a : Tx S ε α).exec s = .ok (a, s) := rfl

@[simp] theorem exec_fail (e : ε) (s : S.State) :
    (fail e : Tx S ε α).exec s = .error e := rfl

@[simp] theorem exec_query (q : S.State → α) (s : S.State) :
    (query q : Tx S ε α).exec s = .ok (q s, s) := rfl

@[simp] theorem exec_lockRow (k : S.Key) (s : S.State) :
    (lockRow k : Tx S ε (S.Row k)).exec s = .ok (S.get s k, s) := rfl

@[simp] theorem exec_perform (w : S.Write) (s : S.State) :
    (perform w : Tx S ε Unit).exec s = .ok ((), S.apply s w) := rfl

@[simp] theorem exec_bind (p : Tx S ε α) (f : α → Tx S ε β) (s : S.State) :
    (p >>= f).exec s = (p.exec s).bind fun r => (f r.1).exec r.2 := by
  change (p.bind f).exec s = _
  induction p generalizing s with
  | done a => rfl
  | fail e => rfl
  | read next ih => exact ih s s
  | lock k next ih => exact ih (S.get s k) s
  | write w next ih => exact ih (S.apply s w)

/-- `p`, run alone, does not fail with `e`. -/
def Avoids (e : ε) (p : Tx S ε α) : Prop := ∀ s, p.exec s ≠ .error e

section Avoids

variable {e : ε}

theorem avoids_pure {a : α} : Avoids e (pure a : Tx S ε α) := by
  intro s h
  cases h

theorem avoids_fail {e' : ε} (hne : e' ≠ e) : Avoids e (fail e' : Tx S ε α) := by
  intro s h
  cases h
  exact hne rfl

theorem avoids_query {q : S.State → α} : Avoids e (query q : Tx S ε α) := by
  intro s h
  cases h

theorem avoids_lockRow {k : S.Key} : Avoids e (lockRow k : Tx S ε (S.Row k)) := by
  intro s h
  cases h

theorem avoids_perform {w : S.Write} : Avoids e (perform w : Tx S ε Unit) := by
  intro s h
  cases h

theorem avoids_bind {p : Tx S ε α} {f : α → Tx S ε β} (hp : Avoids e p)
    (hf : ∀ a, Avoids e (f a)) : Avoids e (p >>= f) := by
  intro s h
  rw [exec_bind] at h
  cases hfirst : p.exec s with
  | error e' =>
      rw [hfirst] at h
      cases h
      exact hp s hfirst
  | ok r =>
      rw [hfirst] at h
      exact hf r.1 r.2 h

end Avoids

/-- `p`, run alone on a state of which something is hidden, does what it does on the state
itself, and leaves the same hidden. -/
def Blind (hide : S.State → S.State) (p : Tx S ε α) : Prop :=
  ∀ s, p.exec (hide s) = (p.exec s).map fun r => (r.1, hide r.2)

section Blind

variable {hide : S.State → S.State}

theorem blind_pure {a : α} : Blind hide (pure a : Tx S ε α) := fun _ => rfl

theorem blind_fail {e : ε} : Blind hide (fail e : Tx S ε α) := fun _ => rfl

theorem blind_query {q : S.State → α} (hq : ∀ s, q (hide s) = q s) :
    Blind hide (query q : Tx S ε α) := by
  intro s
  rw [exec_query, exec_query, hq]
  rfl

theorem blind_lockRow {k : S.Key} (hk : ∀ s, S.get (hide s) k = S.get s k) :
    Blind hide (lockRow k : Tx S ε (S.Row k)) := by
  intro s
  rw [exec_lockRow, exec_lockRow, hk]
  rfl

theorem blind_perform {w : S.Write} (hw : ∀ s, S.apply (hide s) w = hide (S.apply s w)) :
    Blind hide (perform w : Tx S ε Unit) := by
  intro s
  rw [exec_perform, exec_perform, hw]
  rfl

theorem blind_bind {p : Tx S ε α} {f : α → Tx S ε β} (hp : Blind hide p)
    (hf : ∀ a, Blind hide (f a)) : Blind hide (p >>= f) := by
  intro s
  rw [exec_bind, exec_bind, hp]
  cases p.exec s with
  | error e => rfl
  | ok r => exact hf r.1 r.2

theorem blind_ite {c : Prop} [Decidable c] {p p' : Tx S ε α} (hp : Blind hide p)
    (hp' : Blind hide p') : Blind hide (if c then p else p') := by
  split
  · exact hp
  · exact hp'

end Blind

/-! ## Running among others -/

/-- `Yields seen s p ws a ws'`: having written `ws`, the transaction `p` returns `a`
having written `ws'`, where the rows it locks have the versions of `s` under its
own writes and its unlocked reads are answered by states `seen`. -/
def Yields (seen : S.State → Prop) (s : S.State) :
    Tx S ε α → List S.Write → α → List S.Write → Prop
  | done a, ws, r, ws' => r = a ∧ ws' = ws
  | fail _, _, _, _ => False
  | read next, ws, r, ws' =>
      ∃ s₀, seen s₀ ∧ Yields seen s (next (S.applyAll s₀ ws)) ws r ws'
  | lock k next, ws, r, ws' =>
      Yields seen s (next (S.get (S.applyAll s ws) k)) ws r ws'
  | write w next, ws, r, ws' => Yields seen s next (ws ++ [w]) r ws'

section Yields

variable {seen : S.State → Prop} {s : S.State} {ws ws' : List S.Write}

@[simp] theorem yields_pure {a r : α} :
    Yields seen s (pure a : Tx S ε α) ws r ws' ↔ r = a ∧ ws' = ws := Iff.rfl

@[simp] theorem yields_fail {e : ε} {r : α} :
    Yields seen s (fail e : Tx S ε α) ws r ws' ↔ False := Iff.rfl

@[simp] theorem yields_query {q : S.State → α} {r : α} :
    Yields seen s (query q : Tx S ε α) ws r ws' ↔
      ∃ s₀, seen s₀ ∧ r = q (S.applyAll s₀ ws) ∧ ws' = ws := Iff.rfl

@[simp] theorem yields_lockRow {k : S.Key} {r : S.Row k} :
    Yields seen s (lockRow k : Tx S ε (S.Row k)) ws r ws' ↔
      r = S.get (S.applyAll s ws) k ∧ ws' = ws := Iff.rfl

@[simp] theorem yields_perform {w : S.Write} {r : Unit} :
    Yields seen s (perform w : Tx S ε Unit) ws r ws' ↔ ws' = ws ++ [w] := by
  simp [perform, Yields]

/-- A sequence yields what its second part yields after its first. -/
@[simp] theorem yields_bind {p : Tx S ε α} {f : α → Tx S ε β} {r : β} :
    Yields seen s (p >>= f) ws r ws' ↔
      ∃ a ws₁, Yields seen s p ws a ws₁ ∧ Yields seen s (f a) ws₁ r ws' := by
  change Yields seen s (p.bind f) ws r ws' ↔ _
  induction p generalizing ws with
  | done a =>
      constructor
      · exact fun h => ⟨a, ws, ⟨rfl, rfl⟩, h⟩
      · rintro ⟨_, _, ⟨rfl, rfl⟩, h⟩
        exact h
  | fail e => simp [bind, Yields]
  | read next ih =>
      simp only [bind, Yields, ih]
      constructor
      · rintro ⟨s₀, hseen, a, ws₁, hfirst, hrest⟩
        exact ⟨a, ws₁, ⟨s₀, hseen, hfirst⟩, hrest⟩
      · rintro ⟨a, ws₁, ⟨s₀, hseen, hfirst⟩, hrest⟩
        exact ⟨s₀, hseen, a, ws₁, hfirst, hrest⟩
  | lock k next ih => exact ih (S.get (S.applyAll s ws) k)
  | write w next ih => exact ih

/-- A transaction run alone yields its result against its own state. -/
theorem yields_of_exec {p : Tx S ε α} {a : α} {s' : S.State}
    (h : p.exec (S.applyAll s ws) = .ok (a, s')) :
    ∃ ws', Yields (fun s₀ => s₀ = s) s p ws a ws' ∧ s' = S.applyAll s ws' := by
  induction p generalizing ws with
  | done b =>
      cases h
      exact ⟨ws, ⟨rfl, rfl⟩, rfl⟩
  | fail e => cases h
  | read next ih =>
      obtain ⟨ws', hyields, hs'⟩ := ih _ h
      exact ⟨ws', ⟨s, rfl, hyields⟩, hs'⟩
  | lock k next ih => exact ih _ h
  | write w next ih =>
      have h' : next.exec (S.applyAll s (ws ++ [w])) = .ok (a, s') := by simpa [exec] using h
      exact ih h'

/-- The whole of a transaction run alone. -/
theorem yields_of_exec_nil {p : Tx S ε α} {a : α} {s' : S.State}
    (h : p.exec s = .ok (a, s')) :
    ∃ ws', Yields (fun s₀ => s₀ = s) s p [] a ws' ∧ s' = S.applyAll s ws' :=
  yields_of_exec h

end Yields

/-! ## Whatever the answers -/

/-- `Ends Q p ws`: having written `ws`, the transaction `p` returns only with results and
writes that satisfy `Q`, whatever its reads and its locked rows are answered by. -/
def Ends (Q : α → List S.Write → Prop) : Tx S ε α → List S.Write → Prop
  | done a, ws => Q a ws
  | fail _, _ => True
  | read next, ws => ∀ s, Ends Q (next s) ws
  | lock _ next, ws => ∀ row, Ends Q (next row) ws
  | write w next, ws => Ends Q next (ws ++ [w])

section Ends

variable {Q : α → List S.Write → Prop} {ws : List S.Write}

@[simp] theorem ends_pure {a : α} : Ends Q (pure a : Tx S ε α) ws ↔ Q a ws := Iff.rfl

@[simp] theorem ends_fail {e : ε} : Ends Q (fail e : Tx S ε α) ws ↔ True := Iff.rfl

@[simp] theorem ends_query {q : S.State → α} :
    Ends Q (query q : Tx S ε α) ws ↔ ∀ s, Q (q s) ws := Iff.rfl

@[simp] theorem ends_lockRow {k : S.Key} {Q : S.Row k → List S.Write → Prop} :
    Ends Q (lockRow k : Tx S ε (S.Row k)) ws ↔ ∀ row, Q row ws := Iff.rfl

@[simp] theorem ends_perform {w : S.Write} {Q : Unit → List S.Write → Prop} :
    Ends Q (perform w : Tx S ε Unit) ws ↔ Q () (ws ++ [w]) := Iff.rfl

/-- A sequence ends as its second part does after its first. -/
@[simp] theorem ends_bind {p : Tx S ε α} {f : α → Tx S ε β} {Q : β → List S.Write → Prop} :
    Ends Q (p >>= f) ws ↔ Ends (fun a ws' => Ends Q (f a) ws') p ws := by
  change Ends Q (p.bind f) ws ↔ _
  induction p generalizing ws with
  | done a => exact Iff.rfl
  | fail e => exact Iff.rfl
  | read next ih => exact forall_congr' fun s => ih s
  | lock k next ih => exact forall_congr' fun row => ih row
  | write w next ih => exact ih

theorem Ends.mono {Q' : α → List S.Write → Prop} {p : Tx S ε α} (h : Ends Q p ws)
    (himp : ∀ a ws', Q a ws' → Q' a ws') : Ends Q' p ws := by
  induction p generalizing ws with
  | done a => exact himp a ws h
  | fail e => trivial
  | read next ih => exact fun s => ih s (h s)
  | lock k next ih => exact fun row => ih row (h row)
  | write w next ih => exact ih h

@[simp] theorem ends_ite {c : Prop} [Decidable c] {p p' : Tx S ε α} :
    Ends Q (if c then p else p') ws ↔ (c → Ends Q p ws) ∧ (¬ c → Ends Q p' ws) := by
  by_cases hc : c <;> simp [hc]

end Ends

/-! ## Being in the middle of a transaction -/

/-- `Partial seen s p ws b ws' ks`: some statements of `p` lead from having written
`ws` to having written `ws'` with `b` still to run, and they locked `ks`. -/
inductive Partial (seen : S.State → Prop) (s : S.State) :
    Tx S ε α → List S.Write → Tx S ε α → List S.Write → List S.Key → Prop where
  | refl {p : Tx S ε α} {ws : List S.Write} : Partial seen s p ws p ws []
  | read {next : S.State → Tx S ε α} {b : Tx S ε α} {ws ws' : List S.Write}
      {ks : List S.Key} {s₀ : S.State} : seen s₀ →
      Partial seen s (next (S.applyAll s₀ ws)) ws b ws' ks →
      Partial seen s (.read next) ws b ws' ks
  | lock {k : S.Key} {next : S.Row k → Tx S ε α} {b : Tx S ε α}
      {ws ws' : List S.Write} {ks : List S.Key} :
      Partial seen s (next (S.get (S.applyAll s ws) k)) ws b ws' ks →
      Partial seen s (.lock k next) ws b ws' (k :: ks)
  | write {w : S.Write} {next b : Tx S ε α} {ws ws' : List S.Write} {ks : List S.Key} :
      Partial seen s next (ws ++ [w]) b ws' ks →
      Partial seen s (.write w next) ws b ws' (S.touches w ++ ks)

namespace Partial

variable {seen : S.State → Prop} {s : S.State} {p b c : Tx S ε α}
  {ws ws' ws'' : List S.Write} {ks ks' : List S.Key}

/-- Progress composes. -/
theorem trans (h : Partial seen s p ws b ws' ks) (h' : Partial seen s b ws' c ws'' ks') :
    Partial seen s p ws c ws'' (ks ++ ks') := by
  induction h with
  | refl => exact h'
  | read hseen _ ih => exact .read hseen (ih h')
  | lock _ ih => exact .lock (ih h')
  | write _ ih =>
      rw [List.append_assoc]
      exact .write (ih h')

/-- What the rest of a transaction yields, the transaction yields. -/
theorem yields {a : α} (h : Partial seen s p ws b ws' ks) (hb : Yields seen s b ws' a ws'') :
    Yields seen s p ws a ws'' := by
  induction h with
  | refl => exact hb
  | read hseen _ ih => exact ⟨_, hseen, ih hb⟩
  | lock _ ih => exact ih hb
  | write _ ih => exact ih hb

/-- Progress against one state is progress against any state with the same versions
of the rows that were locked. -/
theorem transfer {s' : S.State} (h : Partial seen s p ws b ws' ks)
    (hagree : ∀ k ∈ ks, S.get s k = S.get s' k) : Partial seen s' p ws b ws' ks := by
  induction h with
  | refl => exact .refl
  | read hseen _ ih => exact .read hseen (ih hagree)
  | @lock k next b ws ws' ks _ ih =>
      have hrow := S.get_applyAll_congr (hagree k List.mem_cons_self) ws
      refine .lock ?_
      rw [← hrow]
      exact ih fun k' hk' => hagree k' (List.mem_cons_of_mem k hk')
  | write _ ih =>
      exact .write (ih fun k' hk' => hagree k' (List.mem_append_right _ hk'))

/-- Every write made so far is to keys that are locked. -/
theorem touches_subset (h : Partial seen s p ws b ws' ks) :
    ∀ w ∈ ws', w ∈ ws ∨ ∀ k ∈ S.touches w, k ∈ ks := by
  induction h with
  | refl => exact fun w hw => .inl hw
  | read _ _ ih => exact ih
  | lock _ ih =>
      intro w hw
      exact (ih w hw).imp_right fun h k hk => List.mem_cons_of_mem _ (h k hk)
  | @write w₀ _ _ ws _ ks _ ih =>
      intro w hw
      rcases ih w hw with hmem | hks
      · rcases List.mem_append.mp hmem with hold | hnew
        · exact .inl hold
        · rw [List.mem_singleton] at hnew
          subst hnew
          exact .inr fun k hk => List.mem_append_left ks hk
      · exact .inr fun k hk => List.mem_append_right _ (hks k hk)

/-- The middle of a sequence is in the middle of its first part, or in the middle of
its second part after the first has returned. -/
theorem bind_inv {q : Tx S ε β} {f : β → Tx S ε α} (h : Partial seen s (q >>= f) ws b ws' ks) :
    (∃ q', b = q' >>= f ∧ Partial seen s q ws q' ws' ks) ∨
      ∃ a ws₁ ks', Yields seen s q ws a ws₁ ∧ Partial seen s (f a) ws₁ b ws' ks' := by
  change Partial seen s (q.bind f) ws b ws' ks at h
  induction q generalizing ws ks with
  | done a => exact .inr ⟨a, ws, ks, ⟨rfl, rfl⟩, h⟩
  | fail e =>
      cases h
      exact .inl ⟨.fail e, rfl, .refl⟩
  | read next ih =>
      cases h with
      | refl => exact .inl ⟨.read next, rfl, .refl⟩
      | read hseen hrest =>
          rcases ih _ hrest with ⟨q', hb, hq⟩ | ⟨a, ws₁, ks', hy, hf⟩
          · exact .inl ⟨q', hb, .read hseen hq⟩
          · exact .inr ⟨a, ws₁, ks', ⟨_, hseen, hy⟩, hf⟩
  | lock k next ih =>
      cases h with
      | refl => exact .inl ⟨.lock k next, rfl, .refl⟩
      | lock hrest =>
          rcases ih _ hrest with ⟨q', hb, hq⟩ | ⟨a, ws₁, ks', hy, hf⟩
          · exact .inl ⟨q', hb, .lock hq⟩
          · exact .inr ⟨a, ws₁, ks', hy, hf⟩
  | write w next ih =>
      cases h with
      | refl => exact .inl ⟨.write w next, rfl, .refl⟩
      | write hrest =>
          rcases ih hrest with ⟨q', hb, hq⟩ | ⟨a, ws₁, ks', hy, hf⟩
          · exact .inl ⟨q', hb, .write hq⟩
          · exact .inr ⟨a, ws₁, ks', hy, hf⟩

end Partial

/-! ## Pre- and postconditions -/

/-- `Triple checked I P p Q`: started among others with a view in which `P` holds, `p`
returns only `a`s with views in which `Q a` holds, and `I` holds of the view whenever
`p` is about to lock a checked key. -/
structure Triple (checked : S.Key → Prop) (I P : S.State → Prop) (p : Tx S ε α)
    (Q : α → S.State → Prop) : Prop where
  returns : ∀ {seen : S.State → Prop} {s : S.State} {ws ws' : List S.Write} {a : α},
    P (S.applyAll s ws) → Yields seen s p ws a ws' → Q a (S.applyAll s ws')
  checks : ∀ {seen : S.State → Prop} {s : S.State} {ws ws' : List S.Write} {k : S.Key}
    {next : S.Row k → Tx S ε α} {ks : List S.Key},
    P (S.applyAll s ws) → Partial seen s p ws (.lock k next) ws' ks → checked k →
      I (S.applyAll s ws')

/-- `p` maintains `I`: it starts and returns with it, and has it at every checked lock. -/
abbrev Maintains (checked : S.Key → Prop) (I : S.State → Prop) (p : Tx S ε α) : Prop :=
  Triple checked I I p fun _ => I

namespace Triple

variable {checked : S.Key → Prop} {I P : S.State → Prop} {Q : α → S.State → Prop}

/-- A triple from the beginning of the transaction. -/
theorem result {p : Tx S ε α} (h : Triple checked I P p Q) {seen : S.State → Prop} {s : S.State}
    {ws : List S.Write} {a : α} (hP : P s) (hyields : Yields seen s p [] a ws) :
    Q a (S.applyAll s ws) := by
  refine h.returns ?_ hyields
  exact hP

theorem lockView {p : Tx S ε α} (h : Triple checked I P p Q) {seen : S.State → Prop}
    {s : S.State} {ws : List S.Write} {k : S.Key} {next : S.Row k → Tx S ε α} {ks : List S.Key}
    (hP : P s) (hprogress : Partial seen s p [] (.lock k next) ws ks) (hchecked : checked k) :
    I (S.applyAll s ws) := by
  refine h.checks ?_ hprogress hchecked
  exact hP

/-- The triple of a transaction that runs alone. -/
theorem exec {p : Tx S ε α} (h : Triple checked I P p Q) {s s' : S.State} {a : α} (hP : P s)
    (hexec : p.exec s = .ok (a, s')) : Q a s' := by
  obtain ⟨ws, hyields, rfl⟩ := yields_of_exec_nil hexec
  exact h.result hP hyields

theorem pure {a : α} (h : ∀ s, P s → Q a s) : Triple checked I P (pure a : Tx S ε α) Q where
  returns := by
    intro seen s ws ws' r hP hyields
    obtain ⟨rfl, rfl⟩ := yields_pure.mp hyields
    exact h _ hP
  checks := by
    intro seen s ws ws' k next ks _ hprogress _
    cases hprogress

theorem fail {e : ε} : Triple checked I P (fail e : Tx S ε α) Q where
  returns := fun _ h => False.elim h
  checks := by
    intro seen s ws ws' k next ks _ hprogress _
    cases hprogress

/-- Nothing is known of what an unlocked read returns. -/
theorem query {q : S.State → α} (h : ∀ a s, P s → Q a s) :
    Triple checked I P (query q : Tx S ε α) Q where
  returns := by
    intro seen s ws ws' r hP hyields
    obtain ⟨s₀, -, -, rfl⟩ := yields_query.mp hyields
    exact h _ _ hP
  checks := by
    intro seen s ws ws' k next ks _ hprogress _
    cases hprogress with
    | read _ hrest => cases hrest

theorem lockRow {k : S.Key} {Q : S.Row k → S.State → Prop} (hI : ∀ s, P s → checked k → I s)
    (hQ : ∀ s, P s → Q (S.get s k) s) :
    Triple checked I P (lockRow k : Tx S ε (S.Row k)) Q where
  returns := by
    intro seen s ws ws' r hP hyields
    obtain ⟨rfl, rfl⟩ := yields_lockRow.mp hyields
    exact hQ _ hP
  checks := by
    intro seen s ws ws' k' next ks hP hprogress hchecked
    cases hprogress with
    | refl => exact hI _ hP hchecked
    | lock hrest => cases hrest

theorem perform {w : S.Write} {Q : Unit → S.State → Prop}
    (h : ∀ s, P s → Q () (S.apply s w)) : Triple checked I P (perform w : Tx S ε Unit) Q where
  returns := by
    intro seen s ws ws' r hP hyields
    rw [yields_perform] at hyields
    subst hyields
    simpa using h _ hP
  checks := by
    intro seen s ws ws' k next ks _ hprogress _
    cases hprogress with
    | write hrest => cases hrest

/-- The rule of sequencing. -/
theorem bind {p : Tx S ε α} {f : α → Tx S ε β} {R : β → S.State → Prop}
    (hp : Triple checked I P p Q) (hf : ∀ a, Triple checked I (Q a) (f a) R) :
    Triple checked I P (p >>= f) R where
  returns := by
    intro seen s ws ws' r hP hyields
    obtain ⟨a, ws₁, hfirst, hrest⟩ := yields_bind.mp hyields
    exact (hf a).returns (hp.returns hP hfirst) hrest
  checks := by
    intro seen s ws ws' k next ks hP hprogress hchecked
    rcases hprogress.bind_inv with ⟨q', hq', hfirst⟩ | ⟨a, ws₁, ks', hfirst, hrest⟩
    · cases q' with
      | done a =>
          have hQ := hp.returns hP (hfirst.yields ⟨rfl, rfl⟩)
          have hhead : Partial seen s (f a) ws' (lock k next) ws' [] := by
            rw [hq']
            exact .refl
          exact (hf a).checks hQ hhead hchecked
      | lock k' next' =>
          cases hq'
          exact hp.checks hP hfirst hchecked
      | fail e => cases hq'
      | read next' => cases hq'
      | write w next' => cases hq'
    · exact (hf a).checks (hp.returns hP hfirst) hrest hchecked

theorem ite {c : Prop} [Decidable c] {p q : Tx S ε α} (hp : c → Triple checked I P p Q)
    (hq : ¬ c → Triple checked I P q Q) : Triple checked I P (if c then p else q) Q := by
  split
  · rename_i hc
    exact hp hc
  · rename_i hc
    exact hq hc

end Triple

end Tx

end Nuvonode.Foundation
