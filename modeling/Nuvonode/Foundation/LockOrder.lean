/-
  Foundation/LockOrder.lean --- transactions that lock in one order never deadlock.

  Every key has a rank.  A program is in order when, whatever it is answered, it locks
  only keys that it holds already or that rank above all it holds.  Of the transactions in
  progress, one that holds a key of the highest rank waits for nobody: what it asks for
  next ranks above everything that is held.  So it can run to its end, and after it the
  next one, until the server is idle (`winds_down`).
-/
import Nuvonode.Foundation.Locking
import Mathlib.Data.Finset.Max
import Mathlib.Data.Finset.Card
import Mathlib.Order.Lattice

set_option autoImplicit false

namespace Nuvonode.Foundation

variable {S : Store} {ε O α β : Type}

namespace Tx

/-! ## Locking in order -/

/-- Every key of `ks` is held, or ranks above all that is held. -/
def Above (rank : S.Key → Nat) (held ks : List S.Key) : Prop :=
  ∀ k ∈ ks, k ∈ held ∨ ∀ k' ∈ held, rank k' < rank k

/-- `InOrder rank Q held p`: holding `held`, the transaction `p` locks in order, and
returns only with results and held keys that satisfy `Q`, whatever states its reads and
its locked rows are answered by. -/
def InOrder (rank : S.Key → Nat) (Q : α → List S.Key → Prop) :
    List S.Key → Tx S ε α → Prop
  | held, done a => Q a held
  | _, fail _ => True
  | held, read next => ∀ s, InOrder rank Q held (next s)
  | held, lock k next =>
      Above rank held [k] ∧ ∀ s, InOrder rank Q (held ++ [k]) (next (S.get s k))
  | held, write w next =>
      Above rank held (S.touches w) ∧ InOrder rank Q (held ++ S.touches w) next

section InOrder

variable {rank : S.Key → Nat} {held : List S.Key} {Q : α → List S.Key → Prop}

@[simp] theorem inOrder_pure {a : α} :
    InOrder rank Q held (pure a : Tx S ε α) ↔ Q a held := Iff.rfl

@[simp] theorem inOrder_fail {e : ε} : InOrder rank Q held (fail e : Tx S ε α) ↔ True := Iff.rfl

@[simp] theorem inOrder_query {q : S.State → α} :
    InOrder rank Q held (query q : Tx S ε α) ↔ ∀ s, Q (q s) held := Iff.rfl

@[simp] theorem inOrder_lockRow {k : S.Key} {Q : S.Row k → List S.Key → Prop} :
    InOrder rank Q held (lockRow k : Tx S ε (S.Row k)) ↔
      Above rank held [k] ∧ ∀ s, Q (S.get s k) (held ++ [k]) := Iff.rfl

@[simp] theorem inOrder_perform {w : S.Write} {Q : Unit → List S.Key → Prop} :
    InOrder rank Q held (perform w : Tx S ε Unit) ↔
      Above rank held (S.touches w) ∧ Q () (held ++ S.touches w) := Iff.rfl

/-- A sequence locks in order when its second part does after its first. -/
@[simp] theorem inOrder_bind {p : Tx S ε α} {f : α → Tx S ε β} {Q : β → List S.Key → Prop} :
    InOrder rank Q held (p >>= f) ↔
      InOrder rank (fun a held' => InOrder rank Q held' (f a)) held p := by
  change InOrder rank Q held (p.bind f) ↔ _
  induction p generalizing held with
  | done a => exact Iff.rfl
  | fail e => exact Iff.rfl
  | read next ih => exact forall_congr' fun s => ih s
  | lock k next ih => exact and_congr_right fun _ => forall_congr' fun s => ih (S.get s k)
  | write w next ih => exact and_congr_right fun _ => ih

@[simp] theorem inOrder_ite {c : Prop} [Decidable c] {p p' : Tx S ε α} :
    InOrder rank Q held (if c then p else p') ↔
      (c → InOrder rank Q held p) ∧ (¬ c → InOrder rank Q held p') := by
  by_cases hc : c <;> simp [hc]

theorem InOrder.mono {Q' : α → List S.Key → Prop} {p : Tx S ε α} (h : InOrder rank Q held p)
    (himp : ∀ a held', Q a held' → Q' a held') : InOrder rank Q' held p := by
  induction p generalizing held with
  | done a => exact himp a held h
  | fail e => trivial
  | read next ih => exact fun s => ih s (h s)
  | lock k next ih => exact ⟨h.1, fun s => ih (S.get s k) (h.2 s)⟩
  | write w next ih => exact ⟨h.1, ih h.2⟩

end InOrder

end Tx

namespace Server

variable {prog : O → Tx S ε α} {start : S.State → Prop} {rank : S.Key → Nat}
  {guard : Server S ε O α → ServerEvent O → Server S ε O α → Prop}

/-! ## The order is kept -/

/-- Every transaction in progress locks in order from what it holds. -/
def Ordered (rank : S.Key → Nat) (m : Server S ε O α) : Prop :=
  ∀ t a, m.active t = some a → Tx.InOrder rank (fun _ _ => True) a.locks a.body

theorem Ordered.set {m : Server S ε O α} (h : Ordered rank m) {t : Nat}
    {b : Option (Active S ε O α)}
    (hb : ∀ a, b = some a → Tx.InOrder rank (fun _ _ => True) a.locks a.body) :
    Ordered rank (m.set t b) := by
  intro t' a ha
  rcases active_set_cases ha with ⟨-, hab⟩ | ⟨-, hold⟩
  · exact hb a hab
  · exact h t' a hold

theorem Ordered.step (hprog : ∀ op, Tx.InOrder rank (fun _ _ => True) [] (prog op))
    {m m' : Server S ε O α} {e : ServerEvent O} (h : Ordered rank m) (hstep : Step prog m e m') :
    Ordered rank m' := by
  cases hstep with
  | begin hfree =>
      refine h.set fun a ha => ?_
      cases ha
      exact hprog _
  | @read t a next ha hbody =>
      refine h.set fun b hb => ?_
      cases hb
      have hnext := h t a ha
      rw [hbody] at hnext
      exact hnext _
  | @lock t a k next ha hbody hfree =>
      refine h.set fun b hb => ?_
      cases hb
      have hnext := h t a ha
      rw [hbody] at hnext
      exact hnext.2 _
  | @write t a w next ha hbody hfree =>
      refine h.set fun b hb => ?_
      cases hb
      have hnext := h t a ha
      rw [hbody] at hnext
      exact hnext.2
  | commit ha hbody =>
      intro t' a' ha'
      rcases active_set_cases ha' with ⟨-, hab⟩ | ⟨-, hold⟩
      · cases hab
      · exact h t' a' hold
  | rollback ha => exact h.set fun _ hb => by cases hb

theorem ordered_of_reaches (hprog : ∀ op, Tx.InOrder rank (fun _ _ => True) [] (prog op))
    {m : Server S ε O α} {es : List (ServerEvent O)}
    (h : (machine prog start).Reaches guard es m) : Ordered rank m :=
  h.invariant (Ordered rank) (fun a ha t b hb => by simp [ha.2 t] at hb)
    fun _ _ _ hordered hstep _ => hordered.step hprog hstep

/-! ## Finitely many are in progress -/

theorem finite_of_reaches {m : Server S ε O α} {es : List (ServerEvent O)}
    (h : (machine prog start).Reaches guard es m) :
    ∃ slots : Finset Nat, ∀ t a, m.active t = some a → t ∈ slots := by
  refine h.invariant (fun m => ∃ slots : Finset Nat, ∀ t a, m.active t = some a → t ∈ slots) ?_ ?_
  · exact fun a ha => ⟨∅, fun t b hb => by simp [ha.2 t] at hb⟩
  · rintro m e m' ⟨slots, hslots⟩ hstep -
    have hkept : ∀ (m₁ : Server S ε O α) (t : Nat) (b : Option (Active S ε O α)),
        m₁.active = m.active → ∀ t' a, (m₁.set t b).active t' = some a → t' ∈ insert t slots := by
      intro m₁ t b hsame t' a ha
      rcases active_set_cases ha with ⟨rfl, -⟩ | ⟨-, hold⟩
      · exact Finset.mem_insert_self t' slots
      · rw [hsame] at hold
        exact Finset.mem_insert_of_mem (hslots t' a hold)
    cases hstep with
    | begin _ => exact ⟨_, hkept m _ _ rfl⟩
    | read _ _ => exact ⟨_, hkept m _ _ rfl⟩
    | lock _ _ _ => exact ⟨_, hkept m _ _ rfl⟩
    | write _ _ _ => exact ⟨_, hkept m _ _ rfl⟩
    | commit _ _ => exact ⟨_, hkept _ _ _ rfl⟩
    | rollback _ => exact ⟨_, hkept m _ _ rfl⟩

/-! ## Winding down -/

/-- A step that begins nothing and gives nothing up: a rollback is of a transaction whose
program failed. -/
def Winds (m : Server S ε O α) (e : ServerEvent O) (_ : Server S ε O α) : Prop :=
  match e with
  | .begin _ _ => False
  | .rollback t => ∃ a e, m.active t = some a ∧ a.body = .fail e
  | _ => True

/-- Every key that another transaction holds is none of `ks`, and one of `ks` ranks at
least as high. -/
def Tops (rank : S.Key → Nat) (m : Server S ε O α) (t : Nat) (ks : List S.Key) : Prop :=
  ∀ t' a, t' ≠ t → m.active t' = some a → ∀ k ∈ a.locks, k ∉ ks ∧ ∃ k' ∈ ks, rank k ≤ rank k'

/-- Who holds the highest rank waits for nobody. -/
theorem Tops.free {m : Server S ε O α} {t : Nat} {held ks : List S.Key}
    {b : Option (Active S ε O α)} (h : Tops rank m t held) (habove : Tx.Above rank held ks) :
    (m.set t b).Free t ks := by
  intro t' a ht' ha k hk hlocked
  rw [set_active, Function.update_of_ne ht'] at ha
  obtain ⟨hother, k', hk', hle⟩ := h t' a ht' ha k hlocked
  rcases habove k hk with hheld | hlower
  · exact hother hheld
  · exact absurd (hlower k' hk') (Nat.not_lt.mpr hle)

/-- It still does after it has locked more. -/
theorem Tops.append {m : Server S ε O α} {t : Nat} {held ks : List S.Key}
    (h : Tops rank m t held) (habove : Tx.Above rank held ks) : Tops rank m t (held ++ ks) := by
  intro t' a ht' ha k hk
  obtain ⟨hother, k', hk', hle⟩ := h t' a ht' ha k hk
  refine ⟨fun hmem => ?_, k', List.mem_append_left ks hk', hle⟩
  rcases List.mem_append.mp hmem with hheld | hnew
  · exact hother hheld
  · rcases habove k hnew with hheld | hlower
    · exact hother hheld
    · exact absurd (hlower k' hk') (Nat.not_lt.mpr hle)

/-- Who holds the highest rank can run to its end. -/
theorem steps_of_tops {m : Server S ε O α} {t : Nat} {op : O} (p : Tx S ε α)
    (ws : List S.Write) {ks : List S.Key} (htops : Tops rank m t ks)
    (horder : Tx.InOrder rank (fun _ _ => True) ks p) :
    ∃ es s, Machine.Steps (machine prog start) Winds (m.set t (some ⟨op, p, ws, ks⟩)) es
      ({ m with committed := s }.set t none) := by
  have hactive : ∀ a, (m.set t (some a)).active t = some a := fun a => by simp
  -- One statement, and then what the rest of the body does.
  have hstatement : ∀ (a b : Active S ε O α),
      Step prog (m.set t (some a)) (.statement t) ((m.set t (some a)).set t (some b)) →
      (∃ es s, Machine.Steps (machine prog start) Winds (m.set t (some b)) es
        ({ m with committed := s }.set t none)) →
      ∃ es s, Machine.Steps (machine prog start) Winds (m.set t (some a)) es
        ({ m with committed := s }.set t none) := by
    rintro a b hstep ⟨es, s, hrest⟩
    rw [set_set] at hstep
    have hfirst : Machine.Steps (machine prog start) Winds (m.set t (some a))
        ([] ++ [.statement t]) (m.set t (some b)) := .snoc .refl hstep trivial
    exact ⟨_, s, hfirst.trans hrest⟩
  induction p generalizing ws ks with
  | done r =>
      have hstep : Step prog (m.set t (some ⟨op, .done r, ws, ks⟩)) (.commit t op) _ :=
        .commit (hactive _) rfl
      have hend : ({ m.set t (some ⟨op, .done r, ws, ks⟩) with
          committed := S.applyAll m.committed ws }.set t none : Server S ε O α) =
          { m with committed := S.applyAll m.committed ws }.set t none := by
        simp [set]
      have hcommit : Step prog (m.set t (some ⟨op, .done r, ws, ks⟩)) (.commit t op)
          ({ m with committed := S.applyAll m.committed ws }.set t none) := hend ▸ hstep
      have hwinds : Winds (m.set t (some ⟨op, .done r, ws, ks⟩)) (.commit t op)
          ({ m with committed := S.applyAll m.committed ws }.set t none) := trivial
      exact ⟨_, _, .snoc .refl hcommit hwinds⟩
  | fail e =>
      have hstep : Step prog (m.set t (some ⟨op, .fail e, ws, ks⟩)) (.rollback t) _ :=
        .rollback (hactive _)
      rw [set_set] at hstep
      have hwinds : Winds (m.set t (some ⟨op, .fail e, ws, ks⟩)) (.rollback t) (m.set t none) :=
        ⟨_, e, hactive _, rfl⟩
      exact ⟨_, m.committed, .snoc .refl hstep hwinds⟩
  | read next ih =>
      exact hstatement _ _ (.read (hactive _) rfl) (ih _ ws htops (horder _))
  | lock k next ih =>
      exact hstatement _ _ (.lock (hactive _) rfl (htops.free horder.1))
        (ih _ ws (htops.append horder.1) (horder.2 _))
  | write w next ih =>
      exact hstatement _ _ (.write (hactive _) rfl (htops.free horder.1))
        (ih _ (htops.append horder.1) horder.2)

/-- One more than the highest rank of some keys. -/
def level (rank : S.Key → Nat) (ks : List S.Key) : Nat :=
  (ks.map fun k => rank k + 1).foldr max 0

theorem rank_lt_level {ks : List S.Key} {k : S.Key} (h : k ∈ ks) : rank k < level rank ks := by
  induction ks with
  | nil => cases h
  | cons k' ks ih =>
      simp only [level, List.map_cons, List.foldr_cons]
      rcases List.mem_cons.mp h with rfl | hrest
      · exact lt_of_lt_of_le (Nat.lt_succ_self _) (le_max_left _ _)
      · exact lt_of_lt_of_le (ih hrest) (le_max_right _ _)

theorem exists_of_lt_level {ks : List S.Key} {n : Nat} (h : n < level rank ks) :
    ∃ k ∈ ks, n ≤ rank k := by
  induction ks with
  | nil => exact absurd h (Nat.not_lt_zero n)
  | cons k' ks ih =>
      simp only [level, List.map_cons, List.foldr_cons] at h
      rcases lt_max_iff.mp h with hhead | hrest
      · exact ⟨k', List.mem_cons_self, Nat.lt_succ_iff.mp hhead⟩
      · obtain ⟨k, hk, hle⟩ := ih hrest
        exact ⟨k, List.mem_cons_of_mem k' hk, hle⟩

/-- Where some transaction is in progress, one of them holds the highest rank. -/
theorem exists_tops {m : Server S ε O α} {slots : Finset Nat}
    (hslots : ∀ t a, m.active t = some a → t ∈ slots)
    (hexclusive : ∀ t t' a a', t ≠ t' → m.active t = some a → m.active t' = some a' →
      ∀ k ∈ a.locks, k ∉ a'.locks) (hbusy : ∃ t a, m.active t = some a) :
    ∃ t a, m.active t = some a ∧ Tops rank m t a.locks := by
  obtain ⟨t₀, a₀, ha₀⟩ := hbusy
  let busy := slots.filter fun t => (m.active t).isSome
  have hbusy : t₀ ∈ busy := Finset.mem_filter.mpr ⟨hslots t₀ a₀ ha₀, by rw [ha₀]; rfl⟩
  obtain ⟨t, ht, hmax⟩ := Finset.exists_max_image busy
    (fun t => (m.active t).elim 0 fun a => level rank a.locks) ⟨t₀, hbusy⟩
  obtain ⟨a, ha⟩ := Option.isSome_iff_exists.mp (Finset.mem_filter.mp ht).2
  refine ⟨t, a, ha, fun t' a' ht' ha' k hk => ⟨hexclusive t' t a' a ht' ha' ha k hk, ?_⟩⟩
  have hle := hmax t' (Finset.mem_filter.mpr ⟨hslots t' a' ha', by rw [ha']; rfl⟩)
  simp only [ha, ha', Option.elim_some] at hle
  exact exists_of_lt_level (lt_of_lt_of_le (rank_lt_level hk) hle)

/-- No deadlock: from every state that a run reaches, the transactions in progress can all
be brought to their ends, each by its own statements and without giving one up that has
not failed. -/
theorem winds_down (hprog : ∀ op, Tx.InOrder rank (fun _ _ => True) [] (prog op))
    {m : Server S ε O α} {es : List (ServerEvent O)}
    (h : (machine prog start).Reaches Machine.anyStep es m) :
    ∃ es' m', Machine.Steps (machine prog start) Winds m es' m' ∧ ∀ t, m'.active t = none := by
  obtain ⟨slots, hslots⟩ := finite_of_reaches h
  -- The induction is on the slots that may be busy; each round frees one.
  induction slots using Finset.strongInduction generalizing m es with
  | H slots ih =>
      by_cases hbusy : ∃ t a, m.active t = some a
      · obtain ⟨t, a, ha, htops⟩ :=
          exists_tops hslots (sound_of_reaches h).exclusive hbusy
        have hordered : Tx.InOrder rank (fun _ _ => True) a.locks a.body :=
          ordered_of_reaches hprog h t a ha
        obtain ⟨first, s, hfirst⟩ : ∃ es s, Machine.Steps (machine prog start) Winds
            (m.set t (some a)) es ({ m with committed := s }.set t none) :=
          steps_of_tops a.body a.writes htops hordered
        have hsame : m.set t (some a) = m := by
          rw [set, ← ha, Function.update_eq_self]
        rw [hsame] at hfirst
        have hreach := h.steps (hfirst.mono fun _ _ _ _ => trivial)
        obtain ⟨rest, m', hrest, hidle⟩ := ih (slots.erase t)
          (Finset.erase_ssubset (hslots t a ha)) hreach fun t' a' ha' => by
            rcases active_set_cases ha' with ⟨-, hab⟩ | ⟨hne, hold⟩
            · cases hab
            · exact Finset.mem_erase.mpr ⟨hne, hslots t' a' hold⟩
        exact ⟨first ++ rest, m', hfirst.trans hrest, hidle⟩
      · refine ⟨[], m, .refl, fun t => ?_⟩
        cases hactive : m.active t with
        | none => rfl
        | some a => exact absurd ⟨t, a, hactive⟩ hbusy

end Server

end Nuvonode.Foundation
