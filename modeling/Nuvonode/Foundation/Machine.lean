/-
  Foundation/Machine.lean --- labelled transition machines and their runs.

  A machine is a set of start states and a labelled step relation.  A run may be
  asked to meet a guard at every step: the guard sees the state before the step,
  the event, and the state after it, so it can express an assumption about every
  state that is visited as well as a condition on the events themselves.  An
  unguarded run is a run whose guard is `Machine.anyStep`.
-/
set_option autoImplicit false

namespace Nuvonode.Foundation

/-- A labelled transition machine. -/
structure Machine (σ ε : Type) where
  /-- The states a run may begin in. -/
  start : σ → Prop
  /-- One labelled step. -/
  step : σ → ε → σ → Prop

namespace Machine

variable {σ ε : Type} {M : Machine σ ε} {guard : σ → ε → σ → Prop}

/-- The machine of a deterministic, partial next-state function. -/
def ofNext (start : σ → Prop) (next : σ → ε → Option σ) : Machine σ ε where
  start := start
  step s e s' := next s e = some s'

/-- The guard every step meets. -/
def anyStep (_ : σ) (_ : ε) (_ : σ) : Prop := True

/-- Finite executions from one state to another, with their events in order,
every step of which meets the guard. -/
inductive Steps (M : Machine σ ε) (guard : σ → ε → σ → Prop) (s : σ) :
    List ε → σ → Prop where
  | refl : Steps M guard s [] s
  | snoc {es : List ε} {s' s'' : σ} {e : ε} : Steps M guard s es s' →
      M.step s' e s'' → guard s' e s'' → Steps M guard s (es ++ [e]) s''

/-- `Reaches M guard es s`: some start state leads to `s` by the events `es`. -/
def Reaches (M : Machine σ ε) (guard : σ → ε → σ → Prop) (es : List ε) (s : σ) : Prop :=
  ∃ s₀, M.start s₀ ∧ Steps M guard s₀ es s

namespace Steps

/-- Executions compose. -/
theorem trans {s s' s'' : σ} {es es' : List ε} (h : Steps M guard s es s')
    (h' : Steps M guard s' es' s'') : Steps M guard s (es ++ es') s'' := by
  induction h' with
  | refl => simpa using h
  | snoc _ hstep hguard ih =>
      rw [← List.append_assoc]
      exact .snoc ih hstep hguard

/-- A run that meets a stronger guard meets a weaker one. -/
theorem mono {weaker : σ → ε → σ → Prop} {s s' : σ} {es : List ε}
    (himp : ∀ a e b, guard a e b → weaker a e b) (h : Steps M guard s es s') :
    Steps M weaker s es s' := by
  induction h with
  | refl => exact .refl
  | snoc _ hstep hguard ih => exact .snoc ih hstep (himp _ _ _ hguard)

/-- A run of a machine is one of every machine that has its steps. -/
theorem of_step {M' : Machine σ ε} (hstep : ∀ a e b, M.step a e b → M'.step a e b) {s s' : σ}
    {es : List ε} (h : Steps M guard s es s') : Steps M' guard s es s' := by
  induction h with
  | refl => exact .refl
  | snoc _ h hguard ih => exact .snoc ih (hstep _ _ _ h) hguard

/-- The step rule for a property of pairs of states: what holds of `s` with
itself and is kept by every step holds of `s` with every later state. -/
theorem preserves {s s' : σ} {es : List ε} (I : List ε → σ → Prop) (h : Steps M guard s es s')
    (hstart : I [] s)
    (hstep : ∀ es a e b, I es a → M.step a e b → guard a e b → I (es ++ [e]) b) : I es s' := by
  induction h with
  | refl => exact hstart
  | snoc _ h hguard ih => exact hstep _ _ _ _ ih h hguard

end Steps

namespace Reaches

/-- A start state is reached by no event at all. -/
theorem start {s : σ} (h : M.start s) : Reaches M guard [] s := ⟨s, h, .refl⟩

/-- One more step. -/
theorem snoc {s s' : σ} {es : List ε} {e : ε} (h : Reaches M guard es s)
    (hstep : M.step s e s') (hguard : guard s e s') : Reaches M guard (es ++ [e]) s' := by
  obtain ⟨s₀, hstart, hsteps⟩ := h
  exact ⟨s₀, hstart, .snoc hsteps hstep hguard⟩

/-- Any number of further steps. -/
theorem steps {s s' : σ} {es es' : List ε} (h : Reaches M guard es s)
    (h' : Steps M guard s es' s') : Reaches M guard (es ++ es') s' := by
  obtain ⟨s₀, hstart, hsteps⟩ := h
  exact ⟨s₀, hstart, hsteps.trans h'⟩

/-- Reachability under a stronger guard is reachability under a weaker one. -/
theorem mono {weaker : σ → ε → σ → Prop} {s : σ} {es : List ε}
    (himp : ∀ a e b, guard a e b → weaker a e b) (h : Reaches M guard es s) :
    Reaches M weaker es s := by
  obtain ⟨s₀, hstart, hsteps⟩ := h
  exact ⟨s₀, hstart, hsteps.mono himp⟩

/-- The invariant rule: what holds at every start and is kept by every step that
meets the guard holds in every state a guarded run reaches. -/
theorem invariant {s : σ} {es : List ε} (I : σ → Prop) (h : Reaches M guard es s)
    (hstart : ∀ a, M.start a → I a)
    (hstep : ∀ a e b, I a → M.step a e b → guard a e b → I b) : I s := by
  obtain ⟨s₀, hs₀, hsteps⟩ := h
  exact hsteps.preserves (fun _ => I) (hstart s₀ hs₀)
    (fun _ a e b hI hab hguard => hstep a e b hI hab hguard)

/-- The invariant rule for a property that also mentions the events so far. -/
theorem invariant_trace {s : σ} {es : List ε} (I : List ε → σ → Prop)
    (h : Reaches M guard es s) (hstart : ∀ a, M.start a → I [] a)
    (hstep : ∀ es a e b, I es a → M.step a e b → guard a e b → I (es ++ [e]) b) :
    I es s := by
  obtain ⟨s₀, hs₀, hsteps⟩ := h
  exact hsteps.preserves I (hstart s₀ hs₀) hstep

/-- The rule for a part of a system: where every step is a step of the part or leaves it
alone, the part's state is one that the part reaches by itself. -/
theorem project {σ' ε' : Type} {M' : Machine σ' ε'} {guard' : σ' → ε' → σ' → Prop}
    (part : σ → σ') {s : σ} {es : List ε} (h : Reaches M guard es s)
    (hstart : ∀ a, M.start a → M'.start (part a))
    (hstep : ∀ a e b, M.step a e b → guard a e b → part b = part a ∨
      ∃ e', M'.step (part a) e' (part b) ∧ guard' (part a) e' (part b)) :
    ∃ es', Reaches M' guard' es' (part s) := by
  refine h.invariant (fun s => ∃ es', Reaches M' guard' es' (part s)) ?_ ?_
  · intro a ha
    exact ⟨[], .start (hstart a ha)⟩
  · rintro a e b ⟨es', hreach⟩ hab hguard
    rcases hstep a e b hab hguard with hsame | ⟨e', hpart, hguard'⟩
    · exact ⟨es', hsame ▸ hreach⟩
    · exact ⟨es' ++ [e'], hreach.snoc hpart hguard'⟩

end Reaches

/-! ## Executable runs -/

/-- Run a next-state function over a list of events, stopping where an event
cannot happen or a decidable check fails. -/
def exec (next : σ → ε → Option σ) (check : σ → ε → σ → Bool) :
    σ → List ε → Option σ
  | s, [] => some s
  | s, e :: es => (next s e).bind fun s' =>
      if check s e s' then exec next check s' es else none

/-- What `exec` computes is an execution of the machine, under any guard that the
check establishes. -/
theorem steps_of_exec {start : σ → Prop} {next : σ → ε → Option σ}
    {check : σ → ε → σ → Bool} (hguard : ∀ a e b, check a e b = true → guard a e b) :
    ∀ {es : List ε} {s s' : σ}, exec next check s es = some s' →
      Steps (ofNext start next) guard s es s' := by
  intro es
  induction es with
  | nil =>
      intro s s' h
      cases h
      exact .refl
  | cons e es ih =>
      intro s s' h
      obtain ⟨mid, hmid, hrest⟩ := Option.bind_eq_some_iff.mp h
      split at hrest
      · rename_i hcheck
        have hfirst : Steps (ofNext start next) guard s ([] ++ [e]) mid :=
          .snoc .refl hmid (hguard _ _ _ hcheck)
        simpa using hfirst.trans (ih hrest)
      · simp at hrest

/-- A checked execution leads to the state it ends in. -/
theorem steps_of_isSome {start : σ → Prop} {next : σ → ε → Option σ} {check : σ → ε → σ → Bool}
    (hguard : ∀ a e b, check a e b = true → guard a e b) {s : σ} {es : List ε}
    (h : (exec next check s es).isSome) :
    Steps (ofNext start next) guard s es ((exec next check s es).getD s) := by
  obtain ⟨s', hs'⟩ := Option.isSome_iff_exists.mp h
  rw [hs']
  exact steps_of_exec hguard hs'

/-- A checked execution from a start state reaches the state it ends in. -/
theorem reaches_of_exec {start : σ → Prop} {next : σ → ε → Option σ} {check : σ → ε → σ → Bool}
    (hguard : ∀ a e b, check a e b = true → guard a e b) {s : σ} (hstart : start s) {es : List ε}
    (h : (exec next check s es).isSome) :
    Reaches (ofNext start next) guard es ((exec next check s es).getD s) :=
  ⟨s, hstart, steps_of_isSome hguard h⟩

instance (s : σ) (e : ε) (s' : σ) : Decidable (anyStep s e s') := isTrue trivial

/-- The rule for runs on given events: a checked execution that ends in a state of some kind
reaches such a state. -/
theorem exists_of_exec {start : σ → Prop} {next : σ → ε → Option σ} {Q : σ → Prop}
    [∀ a e b, Decidable (guard a e b)] {s : σ} (hstart : start s) {es : List ε}
    (h : ∃ s' ∈ exec next (fun a e b => decide (guard a e b)) s es, Q s') :
    ∃ s', Reaches (ofNext start next) guard es s' ∧ Q s' := by
  obtain ⟨s', hs', hQ⟩ := h
  have hsteps : Steps (ofNext start next) guard s es s' :=
    steps_of_exec (fun _ _ _ hcheck => of_decide_eq_true hcheck) hs'
  exact ⟨s', ⟨s, hstart, hsteps⟩, hQ⟩

end Machine

end Nuvonode.Foundation
