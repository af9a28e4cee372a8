/-
  Foundation/History.lean --- machines that write down what they do.

  A recorded machine keeps a log beside its state.  No step reads the log, so the runs
  of a recorded machine are the runs of the machine itself, each with its log.  A view
  reads what one kind of entry says, and the latest one counts.
-/
import Nuvonode.Foundation.Machine

set_option autoImplicit false

namespace Nuvonode.Foundation

namespace Machine

variable {σ ε α : Type}

/-- The machine with a log beside its state: a step appends what it shows of itself. -/
def recorded (M : Machine σ ε) (shows : σ → ε → σ → List α) : Machine (σ × List α) ε where
  start s := M.start s.1 ∧ s.2 = []
  step s e s' := M.step s.1 e s'.1 ∧ s'.2 = s.2 ++ shows s.1 e s'.1

/-- A guard that does not look at the log. -/
def onState (guard : σ → ε → σ → Prop) (s : σ × List α) (e : ε) (s' : σ × List α) : Prop :=
  guard s.1 e s'.1

variable {M : Machine σ ε} {shows : σ → ε → σ → List α} {guard : σ → ε → σ → Prop}

/-- A run of the recorded machine without its log is a run of the machine. -/
theorem Reaches.forget {es : List ε} {s : σ × List α}
    (h : (M.recorded shows).Reaches (onState guard) es s) : M.Reaches guard es s.1 := by
  refine (h.invariant_trace (fun es s => M.Reaches guard es s.1) ?_ ?_)
  · exact fun a ha => .start ha.1
  · exact fun es a e b hreach hstep hguard => hreach.snoc hstep.1 hguard

/-- Every run of the machine has a log. -/
theorem Reaches.record (shows : σ → ε → σ → List α) {es : List ε} {s : σ}
    (h : M.Reaches guard es s) :
    ∃ log, (M.recorded shows).Reaches (onState guard) es (s, log) := by
  refine h.invariant_trace
    (fun es s => ∃ log, (M.recorded shows).Reaches (onState guard) es (s, log)) ?_ ?_
  · exact fun a ha => ⟨[], .start ⟨ha, rfl⟩⟩
  · rintro es a e b ⟨log, hreach⟩ hstep hguard
    have hnext : (M.recorded shows).step (a, log) e (b, log ++ shows a e b) := ⟨hstep, rfl⟩
    exact ⟨log ++ shows a e b, hreach.snoc hnext hguard⟩

end Machine

/-! ## The latest entry -/

section Latest

variable {α β : Type}

/-- What the last entry says that says anything of what a view reads. -/
def latest (view : α → Option β) (log : List α) : Option β := (log.filterMap view).getLast?

@[simp] theorem latest_nil (view : α → Option β) : latest view [] = none := rfl

variable {view : α → Option β} {log log' : List α}

/-- New entries that say nothing leave the latest one. -/
theorem latest_append_of_silent (h : ∀ a ∈ log', view a = none) :
    latest view (log ++ log') = latest view log := by
  unfold latest
  rw [List.filterMap_append, List.filterMap_eq_nil_iff.mpr h, List.append_nil]

/-- New entries that say something have the latest one among them. -/
theorem latest_append_of_some {b : β} (h : latest view log' = some b) :
    latest view (log ++ log') = some b := by
  unfold latest at h ⊢
  rw [List.filterMap_append, List.getLast?_append, h]
  rfl

/-- The latest entry of a longer log is one of the new entries, or was the latest before. -/
theorem latest_append_eq_some {b : β} (h : latest view (log ++ log') = some b) :
    latest view log = some b ∨ ∃ a ∈ log', view a = some b := by
  unfold latest at h ⊢
  rw [List.filterMap_append, List.getLast?_append] at h
  rcases Option.or_eq_some_iff.mp h with hnew | ⟨-, hold⟩
  · obtain ⟨a, ha, hview⟩ := List.mem_filterMap.mp (List.mem_of_getLast? hnew)
    exact .inr ⟨a, ha, hview⟩
  · exact .inl hold

/-- A log without such an entry has no latest one. -/
theorem latest_eq_none (h : ∀ a ∈ log, view a = none) : latest view log = none := by
  unfold latest
  rw [List.filterMap_eq_nil_iff.mpr h]
  rfl

end Latest

end Nuvonode.Foundation
