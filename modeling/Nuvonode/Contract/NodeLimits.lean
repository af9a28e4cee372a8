/-
  Contract/NodeLimits.lean --- when a node stays within the limits of its owner.

  The configuration has a number of jobs and a list of models, and no code but `Load`
  and `Write` reads them.  A node is within both exactly as long as the server sends it
  no job too many and none for a model that is not listed.
-/
import Nuvonode.Contract.Messages
import Nuvonode.Node.Executions

set_option autoImplicit false

namespace Nuvonode.Contract

open Nuvonode.Foundation Nuvonode.Ws.Wire Nuvonode.Node

variable {Time F : Type}

/-- Whether the owner allows a job; without a list every model is allowed. -/
def Allows (cfg : Config) (job : Node.JobRequestPayload F) : Prop :=
  cfg.allowedModelSlugs = [] ∨ goString job.modelSlug.toList ∈ cfg.allowedModelSlugs

/-- Whether what a call wrote is a `provider.job_error` for a job. -/
def Refuses (jobID : String) (written : List (Node.Envelope Time Payload)) : Prop :=
  ∃ envelope error, written = [envelope] ∧ envelope.type = "provider.job_error" ∧
    envelope.payload = .jobError error ∧ error.jobID = jobID

section Limits

variable (float : TextForm F)

/-- A call keeps to the list of models. -/
structure Obeys (cfg : Config) (call : Execution Time F) : Prop where
  /-- Ollama is only asked to run a job that is allowed. -/
  asked : ∀ job, call.job = some job → Allows cfg job
  /-- Any other job that decodes is answered with an error. -/
  refused : ∀ job written, (jobRequestReader float).unmarshal call.payload = some job →
    ¬ Allows cfg job → call.written = some written → Refuses job.jobID written

/-- The node keeps to the limits of its owner. -/
structure KeepsLimits (p : Process Time F) : Prop where
  running : (p.running : Int) ≤ p.cfg.maxConcurrentJobs.toInt
  calls : ∀ call ∈ p.executions, Obeys float p.cfg call

/-- The guard: a job request comes while there is room for it, and for a model that is
allowed if it is for Ollama. -/
def Respects (time : TextForm Time) (p : Process Time F) (e : ProcessEvent Time)
    (_ : Process Time F) : Prop :=
  match e with
  | .frame data => ∀ payload, Process.framePayload time data = some payload →
      (p.running : Int) < p.cfg.maxConcurrentJobs.toInt ∧
        ∀ job, askedJob float payload = some job → Allows p.cfg job
  | _ => True

/-- A call of an allowed payload, as it goes on. -/
structure AllowedCall (cfg : Config) (call : Execution Time F) : Prop where
  payload : ∀ job, askedJob float call.payload = some job → Allows cfg job
  asked : ∀ job, call.job = some job → askedJob float call.payload = some job
  refused : ∀ job written, (jobRequestReader float).unmarshal call.payload = some job →
    ¬ Allows cfg job → call.written = some written → Refuses job.jobID written

variable {float} {cfg : Config} {call call' : Execution Time F}

theorem AllowedCall.obeys (h : AllowedCall float cfg call) : Obeys float cfg call where
  asked job hjob := h.payload job (h.asked job hjob)
  refused := h.refused

/-- A job that Ollama is not asked to run is of another runtime, and refused. -/
theorem refuses_executeJob {payload : Option Json} {job : Node.JobRequestPayload F}
    (hjob : (jobRequestReader float).unmarshal payload = some job)
    (hasked : askedJob float payload = none) (ollama : OllamaChatRequest F → OllamaOutcome)
    (latencyMS : Int64) (stamp : Stamp Time) :
    Refuses job.jobID (executeJob float payload ollama latencyMS stamp) := by
  have hruntime : job.runtime ≠ "ollama" := by
    intro heq
    rw [(askedJob_eq_some_iff float).mpr ⟨hjob, heq⟩] at hasked
    cases hasked
  simp only [executeJob, hjob, if_pos hruntime]
  exact ⟨_, _, rfl, rfl, rfl, rfl⟩

theorem AllowedCall.ask (h : AllowedCall float cfg call) (hmove : call.ask float = some call') :
    AllowedCall float cfg call' := by
  obtain ⟨-, rfl⟩ := Execution.ask_eq_some hmove
  exact
    { payload := h.payload
      asked := fun job hjob => hjob
      refused := fun job written _ _ hwritten =>
        absurd hwritten (Option.some_ne_none written).symm }

theorem AllowedCall.finish {outcome : OllamaOutcome} {latencyMS : Int64} {stamp : Stamp Time}
    (h : AllowedCall float cfg call)
    (hmove : call.finish float outcome latencyMS stamp = some call') :
    AllowedCall float cfg call' := by
  obtain ⟨job, hstage, rfl⟩ := Execution.finish_eq_some hmove
  refine { payload := h.payload, asked := fun asked hasked => ?_, refused := ?_ }
  · refine h.asked asked ?_
    rw [Execution.job, hstage]
    exact hasked
  · intro decoded written hdecoded hallows hwritten
    obtain rfl := Option.some.inj hwritten
    -- A job that Ollama is asked for is the one that decodes, and allowed.
    have hnone : askedJob float call.payload = none := by
      cases hasked : askedJob float call.payload with
      | none => rfl
      | some asked =>
          have hsame := ((askedJob_eq_some_iff float).mp hasked).1
          rw [hdecoded] at hsame
          exact absurd (Option.some.inj hsame ▸ h.payload asked hasked) hallows
    exact refuses_executeJob hdecoded hnone _ _ _

/-- What a run within the limits keeps. -/
structure Restrained (float : TextForm F) (p : Process Time F) : Prop where
  running : (p.running : Int) ≤ p.cfg.maxConcurrentJobs.toInt
  calls : ∀ call ∈ p.executions, AllowedCall float p.cfg call

variable {time : TextForm Time} {p p' : Process Time F} {e : ProcessEvent Time}

theorem Restrained.keepsLimits (h : Restrained float p) : KeepsLimits float p where
  running := h.running
  calls call hcall := (h.calls call hcall).obeys

theorem Restrained.step (h : Restrained float p) (hnext : p.next time float e = some p')
    (hguard : Respects float time p e p') : Restrained float p' := by
  obtain ⟨hcfg, hsame | ⟨data, payload, rfl, hpayload, rfl⟩ |
    ⟨call, old, new, hold, hrunning, hset, hmove⟩⟩ := Process.next_cases hnext
  · refine { running := ?_, calls := ?_ }
    · rw [Process.running, hsame, hcfg]
      exact h.running
    · rw [hsame, hcfg]
      exact h.calls
  · obtain ⟨hroom, hallows⟩ := hguard payload hpayload
    refine { running := ?_, calls := ?_ }
    · rw [Process.running_execute, Nat.cast_add, Nat.cast_one]
      exact hroom
    · intro call hcall
      cases List.mem_append.mp hcall with
      | inl hbefore => exact h.calls call hbefore
      | inr hstarted =>
          rw [List.mem_singleton.mp hstarted]
          exact
            { payload := hallows
              asked := fun job hjob => absurd hjob (Option.some_ne_none job).symm
              refused := fun job written _ _ hwritten =>
                absurd hwritten (Option.some_ne_none written).symm }
  · have hallowed : AllowedCall float p.cfg old := h.calls old (List.mem_of_getElem? hold)
    have hnew : AllowedCall float p.cfg new := by
      rcases hmove with hask | ⟨outcome, latencyMS, stamp, hfinish⟩
      · exact hallowed.ask hask
      · exact hallowed.finish hfinish
    refine { running := ?_, calls := ?_ }
    · have hle : (p.executions.set call new).countP Execution.running ≤ p.running :=
        Process.running_set_le hold hrunning
      rw [Process.running, hset, hcfg]
      exact (Int.ofNat_le.mpr hle).trans h.running
    · rw [hset, hcfg]
      intro execution hexecution
      cases List.mem_or_eq_of_mem_set hexecution with
      | inl hbefore => exact h.calls execution hbefore
      | inr hmoved => exact hmoved ▸ hnew

theorem restrained_of_reaches {es : List (ProcessEvent Time)}
    (h : (Process.machine time float).Reaches (Respects float time) es p)
    (hjobs : 1 ≤ p.cfg.maxConcurrentJobs.toInt) : Restrained float p := by
  refine h.invariant (fun p => 1 ≤ p.cfg.maxConcurrentJobs.toInt → Restrained float p) ?_ ?_ hjobs
  · rintro a ⟨content, -, -, -, hnone⟩ hjobs
    refine { running := ?_, calls := ?_ }
    · rw [Process.running, hnone]
      exact Int.le_of_lt hjobs
    · rw [hnone]
      exact fun call hcall => absurd hcall List.not_mem_nil
  · intro a e b hrestrained hnext hguard hjobs
    have hcfg := (Process.next_cases hnext).1
    exact (hrestrained (hcfg ▸ hjobs)).step hnext hguard

/-- A request that does not meet the guard takes the node out of its limits. -/
theorem exceeds_of_not_respects (hnext : p.next time float e = some p')
    (hguard : ¬ Respects float time p e p') :
    ∃ es q, (Process.machine time float).Steps Machine.anyStep p' es q ∧
      ¬ KeepsLimits float q := by
  cases e with
  | frame data =>
      simp only [Respects, not_forall] at hguard
      obtain ⟨payload, hpayload, hguard⟩ := hguard
      have hexecute : p' = p.execute payload := by
        simp only [Process.next, hpayload] at hnext
        split at hnext
        · cases hnext
        · exact (Option.some.inj hnext).symm
      subst hexecute
      by_cases hroom : (p.running : Int) < p.cfg.maxConcurrentJobs.toInt
      · -- The new call asks for a job that is not allowed.
        obtain ⟨job, hjob, hallows⟩ : ∃ job, askedJob float payload = some job ∧
            ¬ Allows p.cfg job := by
          simpa [hroom] using hguard
        have hlast : (p.execute payload).executions[p.executions.length]? =
            some { payload := payload, stage := .started } := List.getElem?_concat_length
        obtain ⟨q, hask, hcfg, hasked⟩ := Process.next_ask time float hlast
        refine ⟨_, q, .snoc .refl hask trivial, fun hkeeps => hallows ?_⟩
        have hobeys := hkeeps.calls _ (List.mem_of_getElem? hasked)
        rw [hcfg] at hobeys
        exact hobeys.asked job hjob
      · refine ⟨[], _, .refl, fun hkeeps => hroom ?_⟩
        have hrunning := hkeeps.running
        rw [Process.running_execute, Nat.cast_add, Nat.cast_one] at hrunning
        exact hrunning
  | _ => exact absurd trivial hguard

end Limits

/-- **When a node keeps to the limits of its owner.** -/
theorem owner_limits_hold (time : TextForm Time) (float : TextForm F) :
    (∀ es p, (Process.machine time float).Reaches (Respects float time) es p →
      1 ≤ p.cfg.maxConcurrentJobs.toInt → KeepsLimits float p) ∧
    (∀ p e p', p.next time float e = some p' → ¬ Respects float time p e p' →
      ∃ es q, (Process.machine time float).Steps Machine.anyStep p' es q ∧
        ¬ KeepsLimits float q) ∧
    ∀ (p : Process Time F) (call : Nat) (execution : Execution Time F),
      p.executions[call]? = some execution →
      ∃ es p' returned, (Process.machine time float).Steps Machine.anyStep p es p' ∧
        p'.executions[call]? = some returned ∧ returned.payload = execution.payload ∧
        returned.running = false :=
  ⟨fun _ _ hreach hjobs => (restrained_of_reaches hreach hjobs).keepsLimits,
    fun _ _ _ hnext hguard => exceeds_of_not_respects hnext hguard,
    fun _ _ _ hcall => Process.exists_returned time float hcall⟩

/-- An owner who allows one job at a time, of one model. -/
def ownerFile : String :=
  "provider_token: pvn_provider_a_b\nmax_concurrent_jobs: 1\nallowed_model_slugs:\n  - qwen\n"

def ownerConfig : Config :=
  { defaultConfig with
    providerToken := goString "pvn_provider_a_b".toList
    allowedModelSlugs := [goString "qwen".toList] }

/-- The node of that owner, as it starts. -/
def ownerNode : Process Unit Bool where
  cfg := ownerConfig
  loops := 0
  executions := []

theorem start_ownerNode : ownerNode.start := by
  refine ⟨ownerFile.toList, ?_, ?_, rfl, rfl⟩
  · decide +kernel
  · decide +kernel

/-- A job request, as the server writes it. -/
def requestPayload (jobID slug : String) : Ws.Wire.JobRequestPayload Bool :=
  chatPayload jobID slug "qwen:7b" [] none 8 120

/-- The payload of that request, as a call gets it. -/
def requestJson (jobID slug : String) : Json :=
  (Writer.struct (jobRequestFields sampleFloat)).encode (requestPayload jobID slug)

/-- The read loop reads that request. -/
def requested (jobID slug : String) : ProcessEvent Unit :=
  .frame (some (dispatch sampleTime sampleFloat () (requestPayload jobID slug)))

theorem framePayload_requested (jobID slug : String) :
    Process.framePayload sampleTime
        (some (dispatch sampleTime sampleFloat () (requestPayload jobID slug))) =
      some (some (requestJson jobID slug)) := jobPayload_dispatch _

theorem askedJob_requested (jobID slug : String) :
    askedJob sampleFloat (some (requestJson jobID slug)) =
      some (chatJob jobID slug "qwen:7b" [] none 8 120) :=
  (askedJob_eq_some_iff sampleFloat).mpr ⟨jobRequest_recovered, rfl⟩

theorem next_requested {p : Process Unit Bool} (hloops : p.loops ≠ 0) (jobID slug : String) :
    p.next sampleTime sampleFloat (requested jobID slug) =
      some (p.execute (some (requestJson jobID slug))) := by
  simp only [requested, Process.next, if_neg hloops, framePayload_requested]

/-- A request for the listed model is within the limits; the next one is not. -/
theorem listed_model_runs :
    let p := { ownerNode with loops := 1 }.execute (some (requestJson "job_1" "qwen"))
    KeepsLimits sampleFloat p ∧
      ∃ es q, (Process.machine sampleTime sampleFloat).Steps Machine.anyStep
          (p.execute (some (requestJson "job_2" "qwen"))) es q ∧ ¬ KeepsLimits sampleFloat q := by
  intro p
  obtain ⟨hkeeps, hexceeds, -⟩ := owner_limits_hold sampleTime sampleFloat
  have hconnected : (Process.machine sampleTime sampleFloat).Reaches
      (Respects sampleFloat sampleTime) [.connect] { ownerNode with loops := 1 } :=
    .snoc (.start start_ownerNode) rfl trivial
  have hreach : (Process.machine sampleTime sampleFloat).Reaches
      (Respects sampleFloat sampleTime) [.connect, requested "job_1" "qwen"] p := by
    refine hconnected.snoc (next_requested Nat.one_ne_zero "job_1" "qwen") ?_
    intro payload hpayload
    rw [framePayload_requested] at hpayload
    obtain rfl := Option.some.inj hpayload
    refine ⟨by decide, fun job hjob => ?_⟩
    rw [askedJob_requested] at hjob
    obtain rfl := Option.some.inj hjob
    exact .inr (List.mem_singleton.mpr rfl)
  refine ⟨hkeeps _ p hreach (by decide), ?_⟩
  refine hexceeds p _ _ (next_requested Nat.one_ne_zero "job_2" "qwen") fun hrespects => ?_
  have hfull := (hrespects _ (framePayload_requested "job_2" "qwen")).1
  exact absurd hfull (by decide)

/-- Two requests for a model that is not listed run side by side, and the first asks
Ollama for its job. -/
theorem unlisted_models_run_together :
    ∃ es p, (Process.machine sampleTime sampleFloat).Reaches Machine.anyStep es p ∧
      1 ≤ p.cfg.maxConcurrentJobs.toInt ∧ p.cfg.maxConcurrentJobs.toInt < p.running ∧
      ∃ call job, call ∈ p.executions ∧ call.job = some job ∧ ¬ Allows p.cfg job := by
  let p := { ownerNode with loops := 1 }.execute (some (requestJson "job_1" "llama"))
  let q := p.execute (some (requestJson "job_2" "llama"))
  have hconnected : (Process.machine sampleTime sampleFloat).Reaches Machine.anyStep [.connect]
      { ownerNode with loops := 1 } := .snoc (.start start_ownerNode) rfl trivial
  have hreach : (Process.machine sampleTime sampleFloat).Reaches Machine.anyStep
      [.connect, requested "job_1" "llama", requested "job_2" "llama"] q :=
    (hconnected.snoc (next_requested Nat.one_ne_zero "job_1" "llama") trivial).snoc
      (next_requested Nat.one_ne_zero "job_2" "llama") trivial
  let started : Execution Unit Bool :=
    { payload := some (requestJson "job_1" "llama"), stage := .started }
  have hmove : started.ask sampleFloat =
      some { started with stage := .asked (askedJob sampleFloat started.payload) } := rfl
  have hfirst : q.executions[0]? = some started := rfl
  have hask : q.next sampleTime sampleFloat (.ask 0) = some _ :=
    (Process.advance_of_getElem hfirst hmove :)
  refine ⟨_, _, hreach.snoc hask trivial, by decide, by decide, _,
    chatJob "job_1" "llama" "qwen:7b" [] none 8 120, List.mem_cons_self,
    askedJob_requested "job_1" "llama", ?_⟩
  rintro (hempty | hmem)
  · cases hempty
  · exact absurd hmem (by decide)

end Nuvonode.Contract
