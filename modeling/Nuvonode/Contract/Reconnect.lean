/-
  Contract/Reconnect.lean --- when the delay before a reconnect reflects the outage.

  The backoff is never set back.  So a delay is that of the failed attempts of its outage
  only where nothing but the first attempt of all has connected, or where the outage has
  gone on for so long that the delay is at its cap.
-/
import Nuvonode.Node.Reconnect

set_option autoImplicit false

namespace Nuvonode.Contract

open Nuvonode.Foundation Nuvonode.Node

/-- A delay of `min(2^k, 30)` seconds with a jitter of less than a second. -/
def ReflectsFailures (k : ℕ) (delay : Int64) : Prop :=
  ∃ jitter : ℤ, 0 ≤ jitter ∧ jitter < 1000000000 ∧
    delay.toInt = doubling 30 k * 1000000000 + jitter

/-- The attempts up to a turn, the newest first. -/
def attemptsUntil (turns : List Turn) (i : ℕ) : List Bool :=
  ((turns.take (i + 1)).map fun turn => turn.outcome.connected).reverse

section Delays

variable {content : List Char} {once : Bool} {turns : List Turn} {waits : List Int64}
  {delay : Int64} {i k : ℕ}

/-- The whole seconds of a delay are those of its turn. -/
theorem reflectsFailures_iff (hserve : serve content once turns = .ok waits)
    (hdelay : waits[i]? = some delay) :
    ReflectsFailures k delay ↔ k = i ∨ (5 ≤ k ∧ 5 ≤ i) := by
  obtain ⟨turn, -, heq⟩ := delay_of_serve hserve hdelay
  have hjitter := turn.jitter.nonneg
  have hjitter' := turn.jitter.lt
  have hseconds : ReflectsFailures k delay ↔ doubling 30 k = doubling 30 i := by
    constructor
    · rintro ⟨jitter, hnonneg, hlt, hk⟩
      omega
    · intro h
      exact ⟨turn.jitter.value.toInt, hjitter, hjitter', by rw [heq, h]⟩
  have hcap : ∀ n, 30 ≤ 2 ^ n ↔ 5 ≤ n := by
    intro n
    constructor
    · intro h
      by_contra hlt
      have hpow : 2 ^ n ≤ 2 ^ 4 := Nat.pow_le_pow_right (by decide) (by omega)
      omega
    · intro h
      have hpow : 2 ^ 5 ≤ 2 ^ n := Nat.pow_le_pow_right (by decide) h
      omega
  rw [hseconds, doubling_eq_iff, hcap, hcap]

/-- The attempts up to a turn that was taken. -/
theorem attemptsUntil_cons (h : i < turns.length) :
    ∃ latest older, attemptsUntil turns i = latest :: older ∧ older.length = i := by
  have hlength : (attemptsUntil turns i).length = i + 1 := by
    rw [attemptsUntil, List.length_reverse, List.length_map, List.length_take]
    omega
  obtain ⟨latest, older, hcons⟩ := List.exists_cons_of_length_eq_add_one hlength
  rw [hcons, List.length_cons] at hlength
  exact ⟨latest, older, hcons, Nat.succ.inj hlength⟩

theorem dropLast_attemptsUntil :
    (attemptsUntil turns i).dropLast =
      ((turns.take (i + 1)).tail.map fun turn => turn.outcome.connected).reverse := by
  rw [attemptsUntil, List.dropLast_reverse, ← List.map_tail]

end Delays

/-- **When the delay before a reconnect reflects the current outage.**  Whatever is counted as
its failures, the delay is that of as many as there were turns before. -/
theorem delay_reflects_outage_iff {content : List Char} {once : Bool} {turns : List Turn}
    {waits : List Int64} {i : ℕ} {delay : Int64}
    (hserve : serve content once turns = .ok waits) (hdelay : waits[i]? = some delay) :
    (ReflectsFailures (failedRetries (attemptsUntil turns i)) delay ↔
      (∀ turn ∈ (turns.take (i + 1)).tail, turn.outcome.connected = false) ∨
        5 ≤ failedRetries (attemptsUntil turns i)) ∧
    (∀ k, ReflectsFailures k delay ↔ k = i ∨ (5 ≤ k ∧ 5 ≤ i)) ∧
    delay.toInt < 31 * second.toInt := by
  obtain ⟨turn, hturn, heq⟩ := delay_of_serve hserve hdelay
  have hlt : i < turns.length := (List.getElem?_eq_some_iff.mp hturn).1
  obtain ⟨latest, older, hcons, hlength⟩ := attemptsUntil_cons hlt
  have hle := failedRetries_le latest older
  have hall := failedRetries_eq_iff latest older
  rw [← hcons, hlength] at hle hall
  refine ⟨?_, fun k => reflectsFailures_iff hserve hdelay, ?_⟩
  · rw [reflectsFailures_iff hserve hdelay, hall, dropLast_attemptsUntil, List.mem_reverse,
      List.mem_map]
    constructor
    · rintro (hnone | ⟨hfailed, -⟩)
      · refine .inl fun later hlater => ?_
        exact Bool.eq_false_iff.mpr fun hconnected => hnone ⟨later, hlater, hconnected⟩
      · exact .inr hfailed
    · rintro (hnone | hfailed)
      · refine .inl ?_
        rintro ⟨later, hlater, hconnected⟩
        rw [hnone later hlater] at hconnected
        cases hconnected
      · exact .inr ⟨hfailed, hfailed.trans hle⟩
  · have hcap := doubling_le 30 i
    have hjitter := turn.jitter.lt
    have hsecond : second.toInt = 1000000000 := rfl
    rw [heq, hsecond]
    omega

/-- A configuration with a provider token and nothing else. -/
def tokenFile : List Char := "provider_token: pvn_provider_a_b\n".toList

/-- A turn that nothing interrupts, with no jitter. -/
def turnOf (outcome : Outcome) : Turn where
  outcome := outcome
  cancelled := false
  jitter := { value := 0, nonneg := le_refl 0, lt := by decide }
  interrupted := false

/-- Two failures in a row. -/
def twoFailures : List Turn := List.replicate 2 (turnOf .dialFailed)

/-- The second failure in a row is waited for twice as long as the first. -/
theorem second_failure_reflects :
    serve tokenFile false twoFailures = .ok [second, 2 * second] ∧
      failedRetries (attemptsUntil twoFailures 1) = 1 ∧
      ReflectsFailures (failedRetries (attemptsUntil twoFailures 1)) (2 * second) := by
  have hserve : serve tokenFile false twoFailures = .ok [second, 2 * second] := by
    decide +kernel
  have hdelay : [second, 2 * second][1]? = some (2 * second) := rfl
  have hone : failedRetries (attemptsUntil twoFailures 1) = 1 := failedRetries_of_none 1
  refine ⟨hserve, hone,
    (delay_reflects_outage_iff hserve hdelay).1.mpr (.inl fun turn hturn => ?_)⟩
  have hlast : turn ∈ [turnOf .dialFailed] := hturn
  rw [List.mem_singleton.mp hlast]
  rfl

/-- Five failures, and then a session of an hour. -/
def pastOutage : List Turn :=
  List.replicate 5 (turnOf .dialFailed) ++ [turnOf (.dropped 3600000000000)]

/-- The first retry after that session waits half a minute. -/
theorem past_outage_lengthens_delay :
    ∃ waits, serve tokenFile false pastOutage = .ok waits ∧ waits[5]? = some (30 * second) ∧
      failedRetries (attemptsUntil pastOutage 5) = 0 ∧
      ¬ ReflectsFailures (failedRetries (attemptsUntil pastOutage 5)) (30 * second) := by
  have hnone : failedRetries (attemptsUntil pastOutage 5) = 0 :=
    failedRetries_of_session 0 (List.replicate 5 false)
  have hserve : serve tokenFile false pastOutage =
      .ok [second, 2 * second, 4 * second, 8 * second, 16 * second, 30 * second] := by
    decide +kernel
  have hdelay : [second, 2 * second, 4 * second, 8 * second, 16 * second, 30 * second][5]? =
      some (30 * second) := rfl
  refine ⟨_, hserve, hdelay, hnone, ?_⟩
  rw [hnone, reflectsFailures_iff hserve hdelay]
  omega

end Nuvonode.Contract
