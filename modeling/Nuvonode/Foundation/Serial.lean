/-
  Foundation/Serial.lean --- interleaved transactions as transactions one after another.

  A serial run executes whole transactions, each alone, in some order.  `older` is a
  relation between committed states: what an unlocked read may still be answered by.

  THE CONNECTION.  A program is `Steady` when reads that are answered by older states
  make no difference to what it returns and writes.  If every program is steady, then
  every run of the interleaved server is a serial run of the operations it committed, in
  the order of their commits (`serial_of_reaches`), and every serial run is a run of the
  server (`reaches_of_serial`).
-/
import Nuvonode.Foundation.Locking

set_option autoImplicit false

namespace Nuvonode.Foundation

variable {S : Store} {ε O α β : Type}

namespace Tx

/-! ## Which states answer the reads -/

section Answers

variable {seen seen' : S.State → Prop} {s : S.State} {p b : Tx S ε α} {ws ws' : List S.Write}

/-- More states may answer. -/
theorem Yields.mono (himp : ∀ s₀, seen s₀ → seen' s₀) {a : α} (h : Yields seen s p ws a ws') :
    Yields seen' s p ws a ws' := by
  induction p generalizing ws with
  | done b => exact h
  | fail e => exact h
  | read next ih =>
      obtain ⟨s₀, hseen, hrest⟩ := h
      exact ⟨s₀, himp s₀ hseen, ih _ hrest⟩
  | lock k next ih => exact ih _ h
  | write w next ih => exact ih h

theorem Partial.mono {ks : List S.Key} (himp : ∀ s₀, seen s₀ → seen' s₀)
    (h : Partial seen s p ws b ws' ks) : Partial seen' s p ws b ws' ks := by
  induction h with
  | refl => exact .refl
  | read hseen _ ih => exact .read (himp _ hseen) ih
  | lock _ ih => exact .lock ih
  | write _ ih => exact .write ih

/-- A transaction whose reads are answered by its own state runs alone. -/
theorem exec_of_yields {a : α} (h : Yields (fun s₀ => s₀ = s) s p ws a ws') :
    p.exec (S.applyAll s ws) = .ok (a, S.applyAll s ws') := by
  induction p generalizing ws with
  | done b =>
      obtain ⟨rfl, rfl⟩ := h
      rfl
  | fail e => exact False.elim h
  | read next ih =>
      obtain ⟨_, rfl, hrest⟩ := h
      exact ih _ hrest
  | lock k next ih => exact ih _ h
  | write w next ih =>
      have hrest := ih h
      rw [Store.applyAll_append] at hrest
      exact hrest

end Answers

/-! ## Programs that old answers do not mislead -/

/-- `Steady older p ws`: having written `ws`, the transaction `p` yields nothing with
reads that older states answer that it does not yield with reads of the present state. -/
def Steady (older : S.State → S.State → Prop) (p : Tx S ε α) (ws : List S.Write) : Prop :=
  ∀ s r ws', Yields (fun s₀ => older s₀ s) s p ws r ws' →
    Yields (fun s₀ => s₀ = s) s p ws r ws'

section Steady

variable {older : S.State → S.State → Prop} {ws : List S.Write}

theorem steady_pure {a : α} : Steady older (pure a : Tx S ε α) ws := fun _ _ _ h => h

theorem steady_fail {e : ε} : Steady older (fail e : Tx S ε α) ws := fun _ _ _ h => h

theorem steady_lockRow {k : S.Key} : Steady older (lockRow k : Tx S ε (S.Row k)) ws :=
  fun _ _ _ h => h

theorem steady_perform {w : S.Write} : Steady older (perform w : Tx S ε Unit) ws :=
  fun _ _ _ h => h

theorem steady_bind {p : Tx S ε α} {f : α → Tx S ε β} (hp : Steady older p ws)
    (hf : ∀ a ws', Steady older (f a) ws') : Steady older (p >>= f) ws := by
  intro s r ws' h
  obtain ⟨a, ws₁, hfirst, hrest⟩ := yields_bind.mp h
  exact yields_bind.mpr ⟨a, ws₁, hp s a ws₁ hfirst, hf a ws₁ s r ws' hrest⟩

theorem steady_ite {c : Prop} [Decidable c] {p p' : Tx S ε α} (hp : Steady older p ws)
    (hp' : Steady older p' ws) : Steady older (if c then p else p') ws := by
  split
  · exact hp
  · exact hp'

/-- The same of the writes alone: what is returned may differ. -/
def SteadyWrites (older : S.State → S.State → Prop) (p : Tx S ε α) (ws : List S.Write) :
    Prop :=
  ∀ s r ws', Yields (fun s₀ => older s₀ s) s p ws r ws' →
    ∃ r', Yields (fun s₀ => s₀ = s) s p ws r' ws'

theorem Steady.writes {p : Tx S ε α} (h : Steady older p ws) : SteadyWrites older p ws :=
  fun s r ws' hyields => ⟨r, h s r ws' hyields⟩

theorem steadyWrites_bind {p : Tx S ε α} {f : α → Tx S ε β} (hp : Steady older p ws)
    (hf : ∀ a ws', SteadyWrites older (f a) ws') : SteadyWrites older (p >>= f) ws := by
  intro s r ws' h
  obtain ⟨a, ws₁, hfirst, hrest⟩ := yields_bind.mp h
  obtain ⟨r', hrest'⟩ := hf a ws₁ s r ws' hrest
  exact ⟨r', yields_bind.mpr ⟨a, ws₁, hp s a ws₁ hfirst, hrest'⟩⟩

/-- Running a program for its writes. -/
theorem SteadyWrites.discard {p : Tx S ε α} (h : SteadyWrites older p ws) (b : β) :
    Steady older (p >>= fun _ => pure b) ws := by
  intro s r ws' hyields
  obtain ⟨a, ws₁, hfirst, rfl, rfl⟩ := yields_bind.mp hyields
  obtain ⟨a', hfirst'⟩ := h s a ws' hfirst
  exact yields_bind.mpr ⟨a', ws', hfirst', rfl, rfl⟩

/-- A steady program does alone what it does among others. -/
theorem Steady.exec {p : Tx S ε α} (h : Steady older p []) {s : S.State} {r : α}
    {ws : List S.Write} (hyields : Yields (fun s₀ => older s₀ s) s p [] r ws) :
    p.exec s = .ok (r, S.applyAll s ws) :=
  exec_of_yields (h s r ws hyields)

end Steady

end Tx

/-! ## Serial runs -/

namespace Server

/-- The operations that a run committed, in the order of their commits. -/
def commits (es : List (ServerEvent O)) : List O :=
  es.filterMap fun e => match e with
    | .commit _ op => some op
    | _ => none

@[simp] theorem commits_nil : commits ([] : List (ServerEvent O)) = [] := rfl

@[simp] theorem commits_append (es es' : List (ServerEvent O)) :
    commits (es ++ es') = commits es ++ commits es' :=
  List.filterMap_append

@[simp] theorem commits_commit (t : Nat) (op : O) :
    commits [ServerEvent.commit t op] = [op] := rfl

theorem commits_of_ne {e : ServerEvent O} (h : ∀ t op, e ≠ .commit t op) :
    commits [e] = [] := by
  cases e with
  | commit t op => exact absurd rfl (h t op)
  | _ => rfl

theorem commits_statements (t n : Nat) :
    commits (List.replicate n (ServerEvent.statement t : ServerEvent O)) = [] := by
  induction n with
  | zero => rfl
  | succ n ih =>
      rw [List.replicate_succ', commits_append, ih]
      rfl

/-- The machine of whole transactions. -/
def serial (alone : S.State → O → S.State → Prop) (start : S.State → Prop) :
    Machine S.State O where
  start := start
  step := alone

/-- A program runs alone and returns. -/
def Alone (prog : O → Tx S ε α) (s : S.State) (op : O) (s' : S.State) : Prop :=
  ∃ r, (prog op).exec s = .ok (r, s')

variable {prog : O → Tx S ε α} {start : S.State → Prop}
  {guard : Server S ε O α → ServerEvent O → Server S ε O α → Prop}

theorem Sound.mono {seen seen' : S.State → Prop} {m : Server S ε O α}
    (himp : ∀ s, seen s → seen' s) (h : Sound seen prog m) : Sound seen' prog m where
  progress := fun t a ha => (h.progress t a ha).mono himp
  exclusive := h.exclusive

/-! ## From the server to serial runs -/

section Older

variable {older : S.State → S.State → Prop}

/-- What every write leads to, a list of writes leads to. -/
theorem older_applyAll (hrefl : ∀ s, older s s)
    (htrans : ∀ s s' s'', older s s' → older s' s'' → older s s'')
    (hwrite : ∀ s w, older s (S.apply s w)) (s : S.State) (ws : List S.Write) :
    older s (S.applyAll s ws) := by
  induction ws generalizing s with
  | nil => exact hrefl s
  | cons w ws ih => exact htrans _ _ _ (hwrite s w) (ih (S.apply s w))

theorem older_step (hrefl : ∀ s, older s s)
    (htrans : ∀ s s' s'', older s s' → older s' s'' → older s s'')
    (hwrite : ∀ s w, older s (S.apply s w)) {m m' : Server S ε O α} {e : ServerEvent O}
    (h : Step prog m e m') : older m.committed m'.committed := by
  cases h with
  | commit _ _ => exact older_applyAll hrefl htrans hwrite _ _
  | _ => exact hrefl _

/-- In every run the unlocked reads were answered by states that the present committed
state follows. -/
theorem sound_older (hrefl : ∀ s, older s s)
    (htrans : ∀ s s' s'', older s s' → older s' s'' → older s s'')
    (hwrite : ∀ s w, older s (S.apply s w)) {es : List (ServerEvent O)} {m : Server S ε O α}
    (h : (machine prog start).Reaches guard es m) :
    Sound (fun s₀ => older s₀ m.committed) prog m := by
  refine h.invariant (fun m => Sound (fun s₀ => older s₀ m.committed) prog m) ?_ ?_
  · intro a ha
    exact ⟨fun t b hb => by simp [ha.2 t] at hb, fun t _ b _ _ hb => by simp [ha.2 t] at hb⟩
  · intro a e b hsound hstep _
    have hnext := hsound.step (hrefl _) hstep
    exact hnext.mono fun s₀ hs₀ => htrans _ _ _ hs₀ (older_step hrefl htrans hwrite hstep)

/-- A commit performs the writes of a run of its program whose reads were answered by
older states than the one that was committed at that moment. -/
theorem commit_older (hrefl : ∀ s, older s s)
    (htrans : ∀ s s' s'', older s s' → older s' s'' → older s s'')
    (hwrite : ∀ s w, older s (S.apply s w)) {es : List (ServerEvent O)}
    {m m' : Server S ε O α} {t : Nat} {op : O} (h : (machine prog start).Reaches guard es m)
    (hstep : Step prog m (.commit t op) m') :
    ∃ r ws, Tx.Yields (fun s₀ => older s₀ m.committed) m.committed (prog op) [] r ws ∧
      m'.committed = S.applyAll m.committed ws := by
  cases hstep with
  | @commit _ a r ha hbody =>
      have hp := (sound_older hrefl htrans hwrite h).progress t a ha
      rw [hbody] at hp
      exact ⟨r, a.writes, hp.yields ⟨rfl, rfl⟩, rfl⟩

/-- The server's run as a serial run, where `alone` admits whatever a program yields with
reads that older states answer. -/
theorem serial_of_reaches {alone : S.State → O → S.State → Prop} (hrefl : ∀ s, older s s)
    (htrans : ∀ s s' s'', older s s' → older s' s'' → older s s'')
    (hwrite : ∀ s w, older s (S.apply s w))
    (halone : ∀ op s r ws, Tx.Yields (fun s₀ => older s₀ s) s (prog op) [] r ws →
      alone s op (S.applyAll s ws))
    {es : List (ServerEvent O)} {m : Server S ε O α}
    (h : (machine prog start).Reaches guard es m) :
    (serial alone start).Reaches Machine.anyStep (commits es) m.committed := by
  have hboth : (machine prog start).Reaches guard es m ∧
      (serial alone start).Reaches Machine.anyStep (commits es) m.committed := by
    refine h.invariant_trace (fun es m => (machine prog start).Reaches guard es m ∧
      (serial alone start).Reaches Machine.anyStep (commits es) m.committed) ?_ ?_
    · intro a ha
      exact ⟨.start ha, Machine.Reaches.start ha.1⟩
    · rintro es a e b ⟨hreach, hserial⟩ hstep hguard
      refine ⟨hreach.snoc hstep hguard, ?_⟩
      rw [commits_append]
      cases e with
      | commit t op =>
          obtain ⟨r, ws, hyields, hcommitted⟩ :=
            commit_older hrefl htrans hwrite hreach hstep
          rw [hcommitted]
          exact hserial.snoc (halone op _ r ws hyields) trivial
      | _ =>
          rw [committed_of_step hstep (by simp), commits_of_ne (by simp), List.append_nil]
          exact hserial
  exact hboth.2

end Older

/-! ## From serial runs to the server -/

/-- Transactions that run one after another are a run of the server. -/
theorem reaches_of_serial {ops : List O} {s : S.State}
    (h : (serial (Alone prog) start).Reaches Machine.anyStep ops s) :
    ∃ es, (machine prog start).Reaches Machine.anyStep es ⟨s, fun _ => none⟩ ∧
      commits es = ops := by
  refine h.invariant_trace (fun ops s => ∃ es,
    (machine prog start).Reaches Machine.anyStep es ⟨s, fun _ => none⟩ ∧ commits es = ops) ?_ ?_
  · intro a ha
    exact ⟨[], .start ⟨ha, fun _ => rfl⟩, rfl⟩
  · rintro ops a op b ⟨es, hreach, rfl⟩ ⟨r, hexec⟩ -
    let idle : Server S ε O α := ⟨a, fun _ => none⟩
    have hidle : ∀ t, idle.active t = none := fun _ => rfl
    obtain ⟨n, hsteps⟩ := steps_of_exec hidle 0 op hexec
    refine ⟨_, hreach.steps hsteps, ?_⟩
    rw [commits_append, ← List.singleton_append, commits_append, commits_append,
      commits_statements]
    rfl

end Server

end Nuvonode.Foundation
