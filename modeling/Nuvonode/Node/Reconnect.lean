/-
  Node/Reconnect.lean --- the loop of `Serve`, and the delays that it waits.

  From `provider-node/internal/node/serve.go`: the backoff starts at a second and is
  doubled after every call of `serveOnce` up to half a minute, whatever came of the
  call.  A duration is an `int64` of nanoseconds.
-/
import Nuvonode.Foundation.Backoff
import Nuvonode.Foundation.Word
import Nuvonode.Node.Config

set_option autoImplicit false

namespace Nuvonode.Node

open Nuvonode.Foundation

/-! ## The loop -/

/-- `time.Second`. -/
def second : Int64 := 1000000000

/-- What `rand.Int63n(int64(time.Second))` may return. -/
structure Jitter where
  value : Int64
  nonneg : 0 ≤ value.toInt
  lt : value.toInt < 1000000000

/-- How a call of `serveOnce` ends. -/
inductive Outcome where
  /-- The server cannot be dialed. -/
  | dialFailed
  /-- It could, and the session was lost after some time. -/
  | dropped (lasted : Nat)
  deriving DecidableEq

/-- Whether a call of `serveOnce` connected. -/
def Outcome.connected : Outcome → Bool
  | .dialFailed => false
  | .dropped _ => true

/-- One turn of the loop. -/
structure Turn where
  outcome : Outcome
  /-- Whether the context is done when `serveOnce` returns. -/
  cancelled : Bool
  jitter : Jitter
  /-- Whether the context is done before the delay is over. -/
  interrupted : Bool

/-- The backoff of the next turn. -/
def nextBackoff (backoff : Int64) : Int64 :=
  if 30 * second < backoff * 2 then 30 * second else backoff * 2

/-- The delays that the loop waits, or begins to wait, for the turns that it may take. -/
def delays (once : Bool) (backoff : Int64) : List Turn → List Int64
  | [] => []
  | turn :: turns =>
      if once || turn.cancelled then []
      else (backoff + turn.jitter.value) ::
        if turn.interrupted then [] else delays once (nextBackoff backoff) turns

inductive ServeErr where
  | load (e : LoadErr)
  | tokenFormat
  deriving DecidableEq

/-- `Serve`: the delays between its calls of `serveOnce`. -/
def serve (content : List Char) (once : Bool) (turns : List Turn) : Except ServeErr (List Int64) :=
  match load content with
  | .error e => .error (.load e)
  | .ok cfg =>
      if validProviderToken cfg.providerToken then .ok (delays once second turns)
      else .error .tokenFormat

/-! ## The backoff -/

section Backoff

variable {content : List Char} {once : Bool} {turns : List Turn} {waits : List Int64}
  {backoff delay : Int64} {n i : ℕ}

/-- A backoff of some doublings. -/
def IsBackoff (backoff : Int64) (n : ℕ) : Prop :=
  backoff.toInt = doubling 30 n * 1000000000

theorem isBackoff_second : IsBackoff second 0 := rfl

theorem IsBackoff.next (h : IsBackoff backoff n) : IsBackoff (nextBackoff backoff) (n + 1) := by
  have hpos := doubling_pos (show 1 ≤ 30 by decide) n
  have hle := doubling_le 30 n
  have hsucc := doubling_succ 30 n
  have htwice : (backoff * 2).toInt = backoff.toInt * 2 := by
    have htwo : (2 : Int64).toInt = 2 := rfl
    rw [Int64.toInt_mul, htwo, Int.bmod_def, h]
    omega
  have hcap : (30 * second).toInt = 30 * 1000000000 := rfl
  unfold IsBackoff at h ⊢
  unfold nextBackoff
  split
  · rename_i hover
    rw [Int64.lt_iff_toInt_lt, hcap, htwice, h] at hover
    rw [hcap]
    omega
  · rename_i hunder
    rw [Int64.lt_iff_toInt_lt, hcap, htwice, h] at hunder
    rw [htwice, h]
    omega

/-- Each delay is the backoff of its turn with the jitter of its turn. -/
theorem delay_of_mem (hbackoff : IsBackoff backoff n)
    (h : (delays once backoff turns)[i]? = some delay) :
    ∃ turn current, turns[i]? = some turn ∧ IsBackoff current (n + i) ∧
      delay = current + turn.jitter.value := by
  induction turns generalizing backoff n i with
  | nil => simp [delays] at h
  | cons turn turns ih =>
      unfold delays at h
      split at h
      · simp at h
      · cases i with
        | zero => exact ⟨turn, backoff, rfl, hbackoff, (Option.some.inj h).symm⟩
        | succ i =>
            rw [List.getElem?_cons_succ] at h
            split at h
            · simp at h
            · obtain ⟨later, current, hlater, hcurrent, rfl⟩ := ih hbackoff.next h
              refine ⟨later, current, hlater, ?_, rfl⟩
              rwa [Nat.add_right_comm] at hcurrent

/-- The delay before the reconnect of a turn depends on the number of the turn only. -/
theorem delay_of_serve (hserve : serve content once turns = .ok waits)
    (hdelay : waits[i]? = some delay) :
    ∃ turn, turns[i]? = some turn ∧
      delay.toInt = doubling 30 i * 1000000000 + turn.jitter.value.toInt := by
  have hwaits : waits = delays once second turns := by
    unfold serve at hserve
    split at hserve
    · cases hserve
    · split at hserve
      · exact (Except.ok.inj hserve).symm
      · cases hserve
  subst hwaits
  obtain ⟨turn, current, hturn, hcurrent, rfl⟩ := delay_of_mem isBackoff_second hdelay
  rw [Nat.zero_add] at hcurrent
  have hle := doubling_le 30 i
  have hjitter := turn.jitter.nonneg
  have hjitter' := turn.jitter.lt
  refine ⟨turn, hturn, ?_⟩
  rw [toInt_add_of_fits, hcurrent]
  · rw [hcurrent]
    omega
  · rw [hcurrent]
    simp only [maxInt64]
    omega

end Backoff

end Nuvonode.Node
