/-
  Node/Executions.lean --- the calls of `executeJob` in the process of a node.

  From `provider-node/internal/node/serve.go`: `Serve` loads its configuration once and
  starts a `readLoop` for every connection, and a `readLoop` starts a goroutine for
  every job request that it reads.  No call waits for another, and a call outlives the
  connection that its request came over.
-/
import Nuvonode.Foundation.Machine
import Nuvonode.Node.Config
import Nuvonode.Node.Serve

set_option autoImplicit false

namespace Nuvonode.Node

open Nuvonode.Foundation

variable {Time F : Type}

/-! ## One call -/

section Call

variable (float : TextForm F)

/-- The job that `executeJob` asks Ollama to run: one that decodes, and is for Ollama. -/
def askedJob (payload : Option Json) : Option (JobRequestPayload F) :=
  match (jobRequestReader float).unmarshal payload with
  | none => none
  | some job => if job.runtime ≠ "ollama" then none else some job

theorem askedJob_eq_some_iff {payload : Option Json} {job : JobRequestPayload F} :
    askedJob float payload = some job ↔
      (jobRequestReader float).unmarshal payload = some job ∧ job.runtime = "ollama" := by
  unfold askedJob
  cases (jobRequestReader float).unmarshal payload with
  | none => simp
  | some decoded =>
      by_cases hruntime : decoded.runtime = "ollama"
      · simp only [hruntime, ne_eq, not_true_eq_false, if_false, Option.some.injEq]
        exact ⟨fun h => ⟨h, h ▸ hruntime⟩, fun h => h.1⟩
      · simp only [hruntime, ne_eq, not_false_eq_true, if_true, Option.some.injEq]
        refine ⟨fun h => absurd h (Option.some_ne_none job).symm, ?_⟩
        rintro ⟨rfl, heq⟩
        exact absurd heq hruntime

/-- How far a call of `executeJob` is. -/
inductive Stage (Time F : Type) where
  | started
  /-- The payload has been read; a job is one that Ollama has been asked to run. -/
  | asked (job : Option (JobRequestPayload F))
  | returned (job : Option (JobRequestPayload F)) (written : List (Envelope Time Payload))

/-- A call of `executeJob`, running or not. -/
structure Execution (Time F : Type) where
  payload : Option Json
  stage : Stage Time F

/-- Whether the call has not returned. -/
def Execution.running (call : Execution Time F) : Bool :=
  match call.stage with
  | .started | .asked _ => true
  | .returned _ _ => false

/-- The job that the call has asked Ollama to run. -/
def Execution.job (call : Execution Time F) : Option (JobRequestPayload F) :=
  match call.stage with
  | .started => none
  | .asked job | .returned job _ => job

/-- What the call wrote, once it has returned. -/
def Execution.written (call : Execution Time F) : Option (List (Envelope Time Payload)) :=
  match call.stage with
  | .started | .asked _ => none
  | .returned _ written => some written

/-- A call reads its payload, and asks Ollama to run the job. -/
def Execution.ask (call : Execution Time F) : Option (Execution Time F) :=
  match call.stage with
  | .started => some { call with stage := .asked (askedJob float call.payload) }
  | _ => none

/-- A call writes what comes of its job and returns. -/
def Execution.finish (outcome : OllamaOutcome) (latencyMS : Int64) (stamp : Stamp Time)
    (call : Execution Time F) : Option (Execution Time F) :=
  match call.stage with
  | .asked job => some { call with
      stage := .returned job
        (executeJob float call.payload (fun _ => outcome) latencyMS stamp) }
  | _ => none

variable {float} {call call' : Execution Time F}

theorem Execution.ask_eq_some (h : call.ask float = some call') :
    call.stage = .started ∧
      call' = { call with stage := .asked (askedJob float call.payload) } := by
  unfold Execution.ask at h
  split at h
  · exact ⟨‹_›, (Option.some.inj h).symm⟩
  · cases h

theorem Execution.finish_eq_some {outcome : OllamaOutcome} {latencyMS : Int64} {stamp : Stamp Time}
    (h : call.finish float outcome latencyMS stamp = some call') :
    ∃ job, call.stage = .asked job ∧ call' = { call with
      stage := .returned job
        (executeJob float call.payload (fun _ => outcome) latencyMS stamp) } := by
  unfold Execution.finish at h
  split at h
  · exact ⟨_, ‹_›, (Option.some.inj h).symm⟩
  · cases h

/-- A call that moves is running. -/
theorem Execution.running_of_ask (h : call.ask float = some call') : call.running = true := by
  rw [Execution.running, (Execution.ask_eq_some h).1]

theorem Execution.running_of_finish {outcome : OllamaOutcome} {latencyMS : Int64}
    {stamp : Stamp Time} (h : call.finish float outcome latencyMS stamp = some call') :
    call.running = true := by
  obtain ⟨job, hstage, -⟩ := Execution.finish_eq_some h
  rw [Execution.running, hstage]

end Call

/-! ## The process -/

/-- The process of a node: what `Load` returned, how many read loops there are, and every
call of `executeJob` so far. -/
structure Process (Time F : Type) where
  cfg : Config
  loops : Nat
  executions : List (Execution Time F)

inductive ProcessEvent (Time : Type) where
  /-- `serveOnce` starts a read loop. -/
  | connect
  /-- A read loop fails to read, and ends. -/
  | readError
  /-- A read loop reads a frame; without data it is not JSON. -/
  | frame (data : Option Json)
  | ask (call : Nat)
  | finish (call : Nat) (outcome : OllamaOutcome) (latencyMS : Int64) (stamp : Stamp Time)

namespace Process

/-- How many calls are running. -/
def running (p : Process Time F) : Nat := p.executions.countP Execution.running

/-- `go executeJob(…)`. -/
def execute (p : Process Time F) (payload : Option Json) : Process Time F :=
  { p with executions := p.executions ++ [{ payload := payload, stage := .started }] }

/-- One call moves. -/
def advance (p : Process Time F) (call : Nat)
    (move : Execution Time F → Option (Execution Time F)) : Option (Process Time F) :=
  match p.executions[call]? with
  | none => none
  | some execution =>
      match move execution with
      | none => none
      | some moved => some { p with executions := p.executions.set call moved }

section Next

variable (time : TextForm Time) (float : TextForm F)

/-- The payload of a frame, when `readLoop` starts a call for it. -/
def framePayload (data : Option Json) : Option (Option Json) := data.bind (jobPayload time)

def next (p : Process Time F) : ProcessEvent Time → Option (Process Time F)
  | .connect => some { p with loops := p.loops + 1 }
  | .readError => if p.loops = 0 then none else some { p with loops := p.loops - 1 }
  | .frame data =>
      if p.loops = 0 then none
      else match framePayload time data with
        | none => some p
        | some payload => some (p.execute payload)
  | .ask call => p.advance call (Execution.ask float)
  | .finish call outcome latencyMS stamp =>
      p.advance call (Execution.finish float outcome latencyMS stamp)

/-- What `Serve` starts with: a file that loads, and a provider token of the right form. -/
def start (p : Process Time F) : Prop :=
  ∃ content, load content = .ok p.cfg ∧ validProviderToken p.cfg.providerToken = true ∧
    p.loops = 0 ∧ p.executions = []

/-- The node from its start, in any order of frames, replies of Ollama and reconnects. -/
def machine : Machine (Process Time F) (ProcessEvent Time) := .ofNext start (next time float)

end Next

section Steps

variable {time : TextForm Time} {float : TextForm F} {p p' : Process Time F}
  {e : ProcessEvent Time}

theorem advance_eq_some {call : Nat} {move : Execution Time F → Option (Execution Time F)}
    (h : p.advance call move = some p') :
    ∃ old new, p.executions[call]? = some old ∧ move old = some new ∧
      p' = { p with executions := p.executions.set call new } := by
  unfold advance at h
  split at h
  · cases h
  · rename_i old hold
    split at h
    · cases h
    · exact ⟨old, _, hold, ‹_›, (Option.some.inj h).symm⟩

theorem advance_of_getElem {call : Nat} {old new : Execution Time F}
    {move : Execution Time F → Option (Execution Time F)}
    (hold : p.executions[call]? = some old) (hmove : move old = some new) :
    p.advance call move = some { p with executions := p.executions.set call new } := by
  simp [advance, hold, hmove]

/-- Everything that a step does to the calls. -/
theorem next_cases (h : p.next time float e = some p') :
    p'.cfg = p.cfg ∧
      (p'.executions = p.executions ∨
        (∃ data payload, e = .frame data ∧ framePayload time data = some payload ∧
          p' = p.execute payload) ∨
        ∃ (call : Nat) (old new : Execution Time F), p.executions[call]? = some old ∧
          old.running = true ∧ p'.executions = p.executions.set call new ∧
          (old.ask float = some new ∨
            ∃ outcome latencyMS stamp, old.finish float outcome latencyMS stamp = some new)) := by
  cases e with
  | connect =>
      cases h
      exact ⟨rfl, .inl rfl⟩
  | readError =>
      simp only [next] at h
      split at h
      · cases h
      · cases h
        exact ⟨rfl, .inl rfl⟩
  | frame data =>
      simp only [next] at h
      split at h
      · cases h
      · split at h
        · cases h
          exact ⟨rfl, .inl rfl⟩
        · rename_i payload hpayload
          cases h
          exact ⟨rfl, .inr (.inl ⟨data, payload, rfl, hpayload, rfl⟩)⟩
  | ask call =>
      obtain ⟨old, new, hold, hmove, rfl⟩ := advance_eq_some h
      exact ⟨rfl, .inr (.inr ⟨call, old, new, hold, Execution.running_of_ask hmove, rfl,
        .inl hmove⟩)⟩
  | finish call outcome latencyMS stamp =>
      obtain ⟨old, new, hold, hmove, rfl⟩ := advance_eq_some h
      exact ⟨rfl, .inr (.inr ⟨call, old, new, hold, Execution.running_of_finish hmove, rfl,
        .inr ⟨_, _, _, hmove⟩⟩)⟩

theorem running_execute (p : Process Time F) (payload : Option Json) :
    (p.execute payload).running = p.running + 1 := by
  simp [running, execute, Execution.running]

/-- A call that moves was running. -/
theorem running_set_le {call : Nat} {old new : Execution Time F}
    (hold : p.executions[call]? = some old) (hrunning : old.running = true) :
    (p.executions.set call new).countP Execution.running ≤ p.running := by
  obtain ⟨hlt, hget⟩ := List.getElem?_eq_some_iff.mp hold
  have hpos : 0 < p.executions.countP Execution.running :=
    List.countP_pos_iff.mpr ⟨old, List.mem_of_getElem? hold, hrunning⟩
  rw [List.countP_set hlt, hget, if_pos hrunning, running]
  split <;> omega

variable (time float)

/-- The first step of a call. -/
theorem next_ask {call : Nat} {payload : Option Json}
    (hcall : p.executions[call]? = some { payload := payload, stage := .started }) :
    ∃ p', p.next time float (.ask call) = some p' ∧ p'.cfg = p.cfg ∧
      p'.executions[call]? =
        some { payload := payload, stage := .asked (askedJob float payload) } := by
  obtain ⟨hlt, -⟩ := List.getElem?_eq_some_iff.mp hcall
  exact ⟨_, advance_of_getElem hcall rfl, rfl, List.getElem?_set_self hlt⟩

/-- The last step of a call. -/
theorem next_finish {call : Nat} {payload : Option Json} {job : Option (JobRequestPayload F)}
    (hcall : p.executions[call]? = some { payload := payload, stage := .asked job })
    (outcome : OllamaOutcome) (latencyMS : Int64) (stamp : Stamp Time) :
    ∃ p', p.next time float (.finish call outcome latencyMS stamp) = some p' ∧
      p'.executions[call]? = some
        { payload := payload
          stage := .returned job
            (executeJob float payload (fun _ => outcome) latencyMS stamp) } := by
  obtain ⟨hlt, -⟩ := List.getElem?_eq_some_iff.mp hcall
  exact ⟨_, advance_of_getElem hcall rfl, List.getElem?_set_self hlt⟩

/-- Whatever a call waits for, it can return. -/
theorem exists_returned {call : Nat} {execution : Execution Time F}
    (hcall : p.executions[call]? = some execution) :
    ∃ es p' returned, (machine time float).Steps Machine.anyStep p es p' ∧
      p'.executions[call]? = some returned ∧ returned.payload = execution.payload ∧
      returned.running = false := by
  have hlate : OllamaOutcome := .failed "context deadline exceeded"
  have hstamp : Stamp Time := ⟨"", time.zero⟩
  obtain ⟨payload, stage⟩ := execution
  cases stage with
  | started =>
      obtain ⟨q, hask, -, hasked⟩ := next_ask time float hcall
      obtain ⟨p', hfinish, hreturned⟩ :=
        next_finish time float hasked hlate 0 hstamp
      exact ⟨_, p', _, .snoc (.snoc .refl hask trivial) hfinish trivial, hreturned, rfl, rfl⟩
  | asked job =>
      obtain ⟨p', hfinish, hreturned⟩ :=
        next_finish time float hcall hlate 0 hstamp
      exact ⟨_, p', _, .snoc .refl hfinish trivial, hreturned, rfl, rfl⟩
  | returned job written => exact ⟨[], p, _, .refl, hcall, rfl, rfl⟩

end Steps

end Process

end Nuvonode.Node
