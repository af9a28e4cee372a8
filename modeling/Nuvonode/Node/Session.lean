/-
  Node/Session.lean --- a session of a node, with its goroutines.

  From `serveOnce`, `readLoop` and `executeJob` of `provider-node/internal/node/serve.go`.
  `serveOnce` writes a hello and its models, starts the read loop, and then waits for the
  error of the loop, its ticker and its context.  The loop starts a goroutine for every
  job request.  They all write under one `writeMu`, which is held for a whole message.
-/
import Nuvonode.Foundation.Ending
import Nuvonode.Node.Executions

set_option autoImplicit false

namespace Nuvonode.Node

open Nuvonode.Foundation

variable {Time F : Type}

/-- Where `serveOnce` is. -/
inductive ServePhase where
  /-- It has dialled. -/
  | dialled
  /-- It has written its hello. -/
  | greeted
  | serving
  /-- It has returned, which closes the connection. -/
  | returned
  deriving DecidableEq

/-- Where `readLoop` is. -/
inductive LoopPhase where
  | absent
  | reading
  /-- It has failed to read, and sends the error. -/
  | failed
  | ended
  deriving DecidableEq

/-- Who writes a message. -/
inductive Author where
  | session
  | execution (call : Nat)
  deriving DecidableEq

/-- A call of `serveOnce`, with what it has started. -/
structure ServeOnce (Time F : Type) where
  phase : ServePhase
  loop : LoopPhase
  /-- Whether there is an error in the channel `errc`, which has room for one. -/
  errc : Bool
  executions : List (Execution Time F)
  /-- Who holds `writeMu`, and the message that is written. -/
  writing : Option (Author × Envelope Time Payload)
  /-- What was written to the connection. -/
  written : List (Author × Envelope Time Payload)

inductive ServeEvent (Time : Type) where
  /-- `sendHello` takes `writeMu`. -/
  | hello (stamp : Stamp Time) (instanceKey ollamaURL hostname goos goarch : String)
  /-- `sendModelList` takes `writeMu`, where it has models to send. -/
  | modelList (stamp : Stamp Time) (tags : Except String (List OllamaModel))
  | heartbeat (stamp : Stamp Time)
  /-- A message was written, or it failed, and `writeMu` is free again. -/
  | endWrite (failed : Bool)
  | readError
  /-- The read loop sends its error to `errc`. -/
  | report
  /-- `serveOnce` takes it, and returns it. -/
  | receive
  /-- The context is done, and `serveOnce` returns. -/
  | cancel
  /-- The read loop reads a frame, also one that came before the connection was closed. -/
  | frame (data : Option Json)
  | ask (call : Nat)
  /-- A call of `executeJob` has its outcome, and takes `writeMu` where it has an answer. -/
  | answer (call : Nat) (outcome : OllamaOutcome) (latencyMS : Int64) (stamp : Stamp Time)

namespace ServeOnce

/-- A connection that was just dialled. -/
def dialled : ServeOnce Time F where
  phase := .dialled
  loop := .absent
  errc := false
  executions := []
  writing := none
  written := []

/-- Whether `serveOnce` is not writing itself. -/
def idle (s : ServeOnce Time F) : Bool := !s.writing.any fun held => held.1 = .session

/-- Take `writeMu` to write a message. -/
def lock (s : ServeOnce Time F) (author : Author) (message : Envelope Time Payload) :
    Option (ServeOnce Time F) :=
  if s.writing.isSome then none else some { s with writing := some (author, message) }

/-- `serveOnce` starts its read loop. -/
def serve (s : ServeOnce Time F) : ServeOnce Time F :=
  { s with phase := .serving, loop := .reading }

/-- What `serveOnce` does once it has written. -/
def proceed (s : ServeOnce Time F) (failed : Bool) : ServeOnce Time F :=
  match s.phase with
  | .dialled => { s with phase := if failed then .returned else .greeted }
  | .greeted => s.serve
  | .serving => { s with phase := if failed then .returned else .serving }
  | .returned => s

/-- A message is written, or is lost, and `writeMu` is free. -/
def unlock (s : ServeOnce Time F) (held : Author × Envelope Time Payload) (failed : Bool) :
    ServeOnce Time F :=
  { s with
    writing := none
    written := if failed then s.written else s.written ++ [held] }

section Next

variable (time : TextForm Time) (float : TextForm F)

/-- What an event does; `none` where it cannot happen. -/
def next (s : ServeOnce Time F) : ServeEvent Time → Option (ServeOnce Time F)
  | .hello stamp instanceKey ollamaURL hostname goos goarch =>
      if s.phase = .dialled then
        s.lock .session (sendHello stamp instanceKey ollamaURL hostname goos goarch)
      else none
  | .modelList stamp tags =>
      if s.phase = .greeted ∧ s.idle = true then
        match sendModelList stamp tags with
        | [] => some s.serve
        | message :: _ => s.lock .session message
      else none
  | .heartbeat stamp =>
      if s.phase = .serving ∧ s.idle = true then s.lock .session (sendHeartbeat stamp) else none
  | .endWrite failed =>
      match s.writing with
      | none => none
      | some held =>
          -- A closed connection takes nothing.
          if s.phase = .returned ∧ failed = false then none
          else match held.1 with
            | .session => some ((s.unlock held failed).proceed failed)
            | .execution _ => some (s.unlock held failed)
  | .readError => if s.loop = .reading then some { s with loop := .failed } else none
  | .report =>
      if s.loop = .failed ∧ s.errc = false then some { s with loop := .ended, errc := true }
      else none
  | .receive =>
      if s.phase = .serving ∧ s.idle = true ∧ s.errc = true then
        some { s with phase := .returned, errc := false }
      else none
  | .cancel =>
      if s.phase = .serving ∧ s.idle = true then some { s with phase := .returned } else none
  | .frame data =>
      if s.loop = .reading then
        match Process.framePayload time data with
        | none => some s
        | some payload => some { s with
            executions := s.executions ++ [{ payload := payload, stage := .started }] }
      else none
  | .ask call =>
      match s.executions[call]?.bind (Execution.ask float) with
      | none => none
      | some asked => some { s with executions := s.executions.set call asked }
  | .answer call outcome latencyMS stamp =>
      match s.executions[call]?.bind (Execution.finish float outcome latencyMS stamp) with
      | none => none
      | some done =>
          match done.written with
          | some (message :: _) =>
              { s with executions := s.executions.set call done }.lock (.execution call) message
          | _ => some { s with executions := s.executions.set call done }

/-- A session of a node, from its dialling. -/
def machine : Machine (ServeOnce Time F) (ServeEvent Time) :=
  .ofNext (fun s => s = .dialled) (next time float)

end Next

/-! ## One step -/

/-- One step of a session. -/
inductive Step (time : TextForm Time) (float : TextForm F) (s : ServeOnce Time F) :
    ServeEvent Time → ServeOnce Time F → Prop where
  | hello {stamp : Stamp Time} {instanceKey ollamaURL hostname goos goarch : String} :
      s.phase = .dialled → s.writing = none →
      Step time float s (.hello stamp instanceKey ollamaURL hostname goos goarch) { s with
        writing :=
          some (.session, sendHello stamp instanceKey ollamaURL hostname goos goarch) }
  | noModels {stamp : Stamp Time} {tags : Except String (List OllamaModel)} :
      s.phase = .greeted → s.idle = true → Step time float s (.modelList stamp tags) s.serve
  | modelList {stamp : Stamp Time} {tags : Except String (List OllamaModel)}
      {message : Envelope Time Payload} : s.phase = .greeted → s.writing = none →
      message ∈ sendModelList stamp tags →
      Step time float s (.modelList stamp tags) { s with writing := some (.session, message) }
  | heartbeat {stamp : Stamp Time} : s.phase = .serving → s.writing = none →
      Step time float s (.heartbeat stamp) { s with
        writing := some (.session, sendHeartbeat stamp) }
  | endWrite {failed : Bool} {message : Envelope Time Payload} :
      s.writing = some (.session, message) → (s.phase = .returned → failed = true) →
      Step time float s (.endWrite failed)
        ((s.unlock (.session, message) failed).proceed failed)
  | endAnswer {failed : Bool} {call : Nat} {message : Envelope Time Payload} :
      s.writing = some (.execution call, message) → (s.phase = .returned → failed = true) →
      Step time float s (.endWrite failed) (s.unlock (.execution call, message) failed)
  | readError : s.loop = .reading → Step time float s .readError { s with loop := .failed }
  | report : s.loop = .failed → s.errc = false →
      Step time float s .report { s with loop := .ended, errc := true }
  | receive : s.phase = .serving → s.idle = true → s.errc = true →
      Step time float s .receive { s with phase := .returned, errc := false }
  | cancel : s.phase = .serving → s.idle = true →
      Step time float s .cancel { s with phase := .returned }
  | skip {data : Option Json} : s.loop = .reading → Process.framePayload time data = none →
      Step time float s (.frame data) s
  | frame {data : Option Json} {payload : Option Json} : s.loop = .reading →
      Process.framePayload time data = some payload → Step time float s (.frame data) { s with
        executions := s.executions ++ [{ payload := payload, stage := .started }] }
  | ask {call : Nat} {old asked : Execution Time F} : s.executions[call]? = some old →
      old.ask float = some asked → Step time float s (.ask call) { s with
        executions := s.executions.set call asked }
  | discard {call : Nat} {outcome : OllamaOutcome} {latencyMS : Int64} {stamp : Stamp Time}
      {old done : Execution Time F} : s.executions[call]? = some old →
      old.finish float outcome latencyMS stamp = some done →
      Step time float s (.answer call outcome latencyMS stamp) { s with
        executions := s.executions.set call done }
  | answer {call : Nat} {outcome : OllamaOutcome} {latencyMS : Int64} {stamp : Stamp Time}
      {old done : Execution Time F} {message : Envelope Time Payload} :
      s.executions[call]? = some old → old.finish float outcome latencyMS stamp = some done →
      done.written = some [message] → s.writing = none →
      Step time float s (.answer call outcome latencyMS stamp) { s with
        executions := s.executions.set call done
        writing := some (.execution call, message) }

section Steps

variable {time : TextForm Time} {float : TextForm F} {s s' : ServeOnce Time F}
  {e : ServeEvent Time}

theorem lock_eq_some {author : Author} {message : Envelope Time Payload}
    (h : s.lock author message = some s') :
    s.writing = none ∧ s' = { s with writing := some (author, message) } := by
  unfold lock at h
  split at h
  · cases h
  · rename_i hfree
    exact ⟨Option.not_isSome_iff_eq_none.mp hfree, (Option.some.inj h).symm⟩

/-- A call has one answer or none, which is a result or an error. -/
theorem executeJob_cases (float : TextForm F) (payload : Option Json)
    (ollama : OllamaChatRequest F → OllamaOutcome) (latencyMS : Int64) (stamp : Stamp Time) :
    executeJob float payload ollama latencyMS stamp = [] ∨
      ∃ message, executeJob float payload ollama latencyMS stamp = [message] ∧
        (message.type = "provider.job_error" ∨ message.type = "provider.job_result") := by
  unfold executeJob
  split
  · exact .inl rfl
  · split
    · exact .inr ⟨_, rfl, .inl rfl⟩
    · split
      · exact .inr ⟨_, rfl, .inl rfl⟩
      · exact .inr ⟨_, rfl, .inr rfl⟩

/-- What a call that finishes has to write. -/
theorem written_of_finish {outcome : OllamaOutcome} {latencyMS : Int64} {stamp : Stamp Time}
    {old done : Execution Time F} (h : old.finish float outcome latencyMS stamp = some done) :
    old.written = none ∧ (done.written = some [] ∨ ∃ message, done.written = some [message] ∧
      (message.type = "provider.job_error" ∨ message.type = "provider.job_result")) := by
  obtain ⟨job, hstage, rfl⟩ := Execution.finish_eq_some h
  refine ⟨by rw [Execution.written, hstage], ?_⟩
  rcases executeJob_cases float old.payload (fun _ => outcome) latencyMS stamp with
    hnone | ⟨message, hone, htype⟩
  · exact .inl (congrArg some hnone)
  · exact .inr ⟨message, congrArg some hone, htype⟩

theorem step_of_next (h : s.next time float e = some s') : Step time float s e s' := by
  cases e with
  | hello stamp instanceKey ollamaURL hostname goos goarch =>
      simp only [next] at h
      split at h
      · obtain ⟨hfree, rfl⟩ := lock_eq_some h
        exact .hello ‹_› hfree
      · cases h
  | modelList stamp tags =>
      simp only [next] at h
      split at h
      · rename_i hboth
        split at h
        · cases h
          exact .noModels hboth.1 hboth.2
        · rename_i message rest htags
          obtain ⟨hfree, rfl⟩ := lock_eq_some h
          exact .modelList hboth.1 hfree (htags ▸ List.mem_cons_self)
      · cases h
  | heartbeat stamp =>
      simp only [next] at h
      split at h
      · rename_i hboth
        obtain ⟨hfree, rfl⟩ := lock_eq_some h
        exact .heartbeat hboth.1 hfree
      · cases h
  | endWrite failed =>
      simp only [next] at h
      split at h
      · cases h
      · rename_i held hwriting
        split at h
        · cases h
        · rename_i hopen
          have hfails : s.phase = .returned → failed = true := fun hreturned =>
            Bool.not_eq_false _ ▸ fun hsucceeds => hopen ⟨hreturned, hsucceeds⟩
          obtain ⟨author, message⟩ := held
          cases author with
          | session =>
              cases h
              exact .endWrite hwriting hfails
          | execution call =>
              cases h
              exact .endAnswer hwriting hfails
  | readError =>
      simp only [next] at h
      split at h
      · cases h
        exact .readError ‹_›
      · cases h
  | report =>
      simp only [next] at h
      split at h
      · rename_i hboth
        cases h
        exact .report hboth.1 hboth.2
      · cases h
  | receive =>
      simp only [next] at h
      split at h
      · rename_i hall
        cases h
        exact .receive hall.1 hall.2.1 hall.2.2
      · cases h
  | cancel =>
      simp only [next] at h
      split at h
      · rename_i hboth
        cases h
        exact .cancel hboth.1 hboth.2
      · cases h
  | frame data =>
      simp only [next] at h
      split at h
      · split at h
        · cases h
          exact .skip ‹_› ‹_›
        · cases h
          exact .frame ‹_› ‹_›
      · cases h
  | ask call =>
      simp only [next] at h
      split at h
      · cases h
      · rename_i asked hasked
        cases h
        obtain ⟨old, hold, hask⟩ := Option.bind_eq_some_iff.mp hasked
        exact .ask hold hask
  | answer call outcome latencyMS stamp =>
      simp only [next] at h
      split at h
      · cases h
      · rename_i done hdone
        obtain ⟨old, hold, hfinish⟩ := Option.bind_eq_some_iff.mp hdone
        split at h
        · rename_i message rest hwritten
          obtain ⟨hfree, rfl⟩ := lock_eq_some h
          obtain ⟨-, hnone | ⟨one, hone, -⟩⟩ := written_of_finish hfinish
          · rw [hwritten] at hnone
            cases hnone
          · obtain ⟨rfl, rfl⟩ := List.cons.inj (Option.some.inj (hwritten.symm.trans hone))
            exact .answer hold hfinish hone hfree
        · cases h
          exact .discard hold hfinish

@[simp] theorem written_proceed (failed : Bool) : (s.proceed failed).written = s.written := by
  unfold proceed
  split <;> rfl

@[simp] theorem writing_proceed (failed : Bool) : (s.proceed failed).writing = s.writing := by
  unfold proceed
  split <;> rfl

@[simp] theorem executions_proceed (failed : Bool) :
    (s.proceed failed).executions = s.executions := by
  unfold proceed
  split <;> rfl

end Steps

/-! ## Goroutines -/

/-- The read loop starts after the introduction, and what is in `errc` is its last word. -/
structure Controlled (s : ServeOnce Time F) : Prop where
  starting : s.phase = .dialled ∨ s.phase = .greeted → s.loop = .absent ∧ s.executions = []
  errc : s.errc = true → s.loop = .ended

section Control

variable {time : TextForm Time} {float : TextForm F} {s s' : ServeOnce Time F}
  {e : ServeEvent Time}

theorem controlled_dialled : Controlled (dialled : ServeOnce Time F) where
  starting _ := ⟨rfl, rfl⟩
  errc herr := by cases herr

/-- The channel has room for the error of a read loop that has not ended. -/
theorem Controlled.errc_of_ne (h : Controlled s) (hloop : s.loop ≠ .ended) : s.errc = false :=
  Bool.eq_false_iff.mpr fun herr => hloop (h.errc herr)

/-- Once there is a read loop, the introduction is over. -/
theorem Controlled.of_loop (h : Controlled s) (hloop : s.loop ≠ .absent) :
    ¬ (s.phase = .dialled ∨ s.phase = .greeted) := fun hphase => hloop (h.starting hphase).1

theorem Controlled.of_execution (h : Controlled s) {call : Nat} {execution : Execution Time F}
    (hcall : s.executions[call]? = some execution) :
    ¬ (s.phase = .dialled ∨ s.phase = .greeted) := by
  intro hphase
  rw [(h.starting hphase).2] at hcall
  cases hcall

theorem Controlled.serve (h : Controlled s) (hphase : s.phase = .greeted) :
    Controlled s.serve where
  starting hserving := by
    rcases hserving with hserving | hserving <;> cases hserving
  errc herr := by
    have hended : s.loop = .ended := h.errc herr
    rw [(h.starting (.inr hphase)).1] at hended
    cases hended

theorem Controlled.proceed (h : Controlled s) (failed : Bool) :
    Controlled (s.proceed failed) := by
  unfold ServeOnce.proceed
  split
  · rename_i hphase
    exact ⟨fun _ => h.starting (.inl hphase), h.errc⟩
  · exact h.serve ‹_›
  · rename_i hphase
    refine ⟨fun hstarting => ?_, h.errc⟩
    cases failed <;> rcases hstarting with hstarting | hstarting <;> cases hstarting
  · exact h

theorem Controlled.step (h : Controlled s) (hstep : Step time float s e s') : Controlled s' := by
  cases hstep with
  | hello _ _ | modelList _ _ _ | heartbeat _ _ => exact ⟨h.starting, h.errc⟩
  | noModels hphase _ => exact h.serve hphase
  | endWrite _ _ =>
      exact Controlled.proceed (s := s.unlock _ _) ⟨h.starting, h.errc⟩ _
  | endAnswer _ _ => exact ⟨h.starting, h.errc⟩
  | readError hloop =>
      have hserving := h.of_loop (hloop ▸ LoopPhase.noConfusion)
      refine ⟨fun hphase => absurd hphase hserving, fun herr => ?_⟩
      have hended : s.loop = .ended := h.errc herr
      rw [hloop] at hended
      cases hended
  | report hloop _ =>
      have hserving := h.of_loop (hloop ▸ LoopPhase.noConfusion)
      exact ⟨fun hphase => absurd hphase hserving, fun _ => rfl⟩
  | receive _ _ _ =>
      refine ⟨fun hphase => ?_, fun herr => by cases herr⟩
      rcases hphase with hphase | hphase <;> cases hphase
  | cancel _ _ =>
      refine ⟨fun hphase => ?_, h.errc⟩
      rcases hphase with hphase | hphase <;> cases hphase
  | skip _ _ => exact h
  | frame hloop _ =>
      have hserving := h.of_loop (hloop ▸ LoopPhase.noConfusion)
      exact ⟨fun hphase => absurd hphase hserving, h.errc⟩
  | ask hcall _ | discard hcall _ | answer hcall _ _ _ =>
      exact ⟨fun hphase => absurd hphase (h.of_execution hcall), h.errc⟩

end Control

/-! ## The order of the messages -/

/-- A hello or a list of models. -/
def Announces (message : Envelope Time Payload) : Prop :=
  message.type = "provider.hello" ∨ message.type = "provider.model_list"

/-- What a session may have written: a hello first, then its models, if any, and neither of
them again. -/
inductive Introduced : List (Envelope Time Payload) → Prop where
  | nothing : Introduced []
  | hello {hello : Envelope Time Payload} {rest : List (Envelope Time Payload)} :
      hello.type = "provider.hello" → (∀ message ∈ rest, ¬ Announces message) →
      Introduced (hello :: rest)
  | models {hello models : Envelope Time Payload} {rest : List (Envelope Time Payload)} :
      hello.type = "provider.hello" → models.type = "provider.model_list" →
      (∀ message ∈ rest, ¬ Announces message) → Introduced (hello :: models :: rest)

theorem Introduced.snoc {messages : List (Envelope Time Payload)} {message : Envelope Time Payload}
    (h : Introduced messages) (hnonempty : messages ≠ []) (hother : ¬ Announces message) :
    Introduced (messages ++ [message]) := by
  have hmore : ∀ {rest : List (Envelope Time Payload)}, (∀ other ∈ rest, ¬ Announces other) →
      ∀ other ∈ rest ++ [message], ¬ Announces other := by
    intro rest hrest other hmem
    rcases List.mem_append.mp hmem with hold | hnew
    · exact hrest other hold
    · exact List.mem_singleton.mp hnew ▸ hother
  cases h with
  | nothing => exact absurd rfl hnonempty
  | hello hhello hrest => exact .hello hhello (hmore hrest)
  | models hhello hmodels hrest => exact .models hhello hmodels (hmore hrest)

/-- What is written, and what may be, as `serveOnce` goes on. -/
structure Worded (s : ServeOnce Time F) : Prop where
  dialled : s.phase = .dialled → s.written = [] ∧
    ∀ held ∈ s.writing, held.1 = .session ∧ held.2.type = "provider.hello"
  greeted : s.phase = .greeted →
    (∃ hello, s.written = [hello] ∧ hello.2.type = "provider.hello") ∧
      ∀ held ∈ s.writing, held.1 = .session ∧ held.2.type = "provider.model_list"
  serving : s.phase = .serving → s.written ≠ [] ∧ ∀ held ∈ s.writing, ¬ Announces held.2
  introduced : Introduced (s.written.map Prod.snd)

section Words

variable {time : TextForm Time} {float : TextForm F} {s s' : ServeOnce Time F}
  {e : ServeEvent Time}

/-- Only what is written matters. -/
theorem Worded.of_same (h : Worded s) (hphase : s'.phase = s.phase)
    (hwriting : s'.writing = s.writing) (hwritten : s'.written = s.written) : Worded s' := by
  refine ⟨?_, ?_, ?_, ?_⟩
  · rw [hphase, hwriting, hwritten]
    exact h.dialled
  · rw [hphase, hwriting, hwritten]
    exact h.greeted
  · rw [hphase, hwriting, hwritten]
    exact h.serving
  · rw [hwritten]
    exact h.introduced

/-- Nothing more is said once `serveOnce` has returned. -/
theorem Worded.of_returned (h : Introduced (s.written.map Prod.snd))
    (hphase : s.phase = .returned) : Worded s where
  dialled hother := by rw [hphase] at hother; cases hother
  greeted hother := by rw [hphase] at hother; cases hother
  serving hother := by rw [hphase] at hother; cases hother
  introduced := h

theorem Worded.of_serving (hwritten : s.written ≠ [])
    (hwriting : ∀ held ∈ s.writing, ¬ Announces held.2)
    (h : Introduced (s.written.map Prod.snd)) (hphase : s.phase = .serving) : Worded s where
  dialled hother := by rw [hphase] at hother; cases hother
  greeted hother := by rw [hphase] at hother; cases hother
  serving _ := ⟨hwritten, hwriting⟩
  introduced := h

/-- What is being written becomes the last message, or is lost. -/
theorem Worded.unlock (h : Worded s) {held : Author × Envelope Time Payload} {failed : Bool}
    (hwriting : s.writing = some held) (hphase : s.phase = .serving) :
    Worded (s.unlock held failed) := by
  obtain ⟨hnonempty, hother⟩ := h.serving hphase
  refine .of_serving ?_ (fun _ hnone => by cases hnone) ?_ hphase
  · cases failed with
    | true => exact hnonempty
    | false => exact List.append_ne_nil_of_left_ne_nil hnonempty _
  · cases failed with
    | true => exact h.introduced
    | false =>
        have hmap : ((s.unlock held false).written).map Prod.snd =
            s.written.map Prod.snd ++ [held.2] := List.map_append
        rw [hmap]
        exact h.introduced.snoc (List.map_eq_nil_iff.not.mpr hnonempty) (hother held hwriting)

theorem not_announces_of_answer {message : Envelope Time Payload}
    (h : message.type = "provider.job_error" ∨ message.type = "provider.job_result") :
    ¬ Announces message := by
  unfold Announces
  rcases h with h | h <;> rw [h] <;> decide

theorem type_of_sendModelList {stamp : Stamp Time} {tags : Except String (List OllamaModel)}
    {message : Envelope Time Payload} (h : message ∈ sendModelList stamp tags) :
    message.type = "provider.model_list" := by
  cases tags with
  | error text => cases h
  | ok models =>
      rw [List.mem_singleton.mp h]
      rfl

/-- The end of a write of `serveOnce` itself. -/
theorem Worded.endWrite (h : Worded s) {message : Envelope Time Payload} {failed : Bool}
    (hwriting : s.writing = some (.session, message))
    (hfails : s.phase = .returned → failed = true) :
    Worded ((s.unlock (.session, message) failed).proceed failed) := by
  cases hphase : s.phase with
  | dialled =>
      obtain ⟨hempty, hhello⟩ := h.dialled hphase
      have hproceed : (s.unlock (.session, message) failed).proceed failed =
          { s.unlock (.session, message) failed with
            phase := if failed then .returned else .greeted } := by
        simp only [ServeOnce.proceed, ServeOnce.unlock, hphase]
      rw [hproceed]
      cases failed with
      | true => exact .of_returned h.introduced rfl
      | false =>
          have htype : message.type = "provider.hello" := (hhello _ hwriting).2
          have hwritten : s.written ++ [(.session, message)] = [(.session, message)] := by
            rw [hempty, List.nil_append]
          refine ⟨fun hother => ?_, fun _ => ⟨⟨_, hwritten, htype⟩, fun held hnone => ?_⟩,
            fun hother => ?_, ?_⟩
          · cases hother
          · cases hnone
          · cases hother
          · have hmap : ((s.written ++ [(Author.session, message)]).map Prod.snd) = [message] := by
              rw [hwritten, List.map_singleton]
            exact hmap ▸ .hello htype fun _ hmem => by cases hmem
  | greeted =>
      obtain ⟨⟨hello, hwritten, hhello⟩, hmodels⟩ := h.greeted hphase
      have hproceed : (s.unlock (.session, message) failed).proceed failed =
          (s.unlock (.session, message) failed).serve := by
        simp only [ServeOnce.proceed, ServeOnce.unlock, hphase]
      rw [hproceed]
      have htype : message.type = "provider.model_list" := (hmodels _ hwriting).2
      refine .of_serving ?_ (fun _ hnone => by cases hnone) ?_ rfl
      · cases failed with
        | true => exact hwritten ▸ List.cons_ne_nil _ _
        | false => exact List.append_ne_nil_of_right_ne_nil _ (List.cons_ne_nil _ _)
      · cases failed with
        | true => exact h.introduced
        | false =>
            have hmap : ((s.written ++ [(Author.session, message)]).map Prod.snd) =
                [hello.2, message] := by
              rw [hwritten]
              rfl
            exact hmap ▸ .models hhello htype fun _ hmem => by cases hmem
  | serving =>
      have hunlocked : Worded (s.unlock (.session, message) failed) := h.unlock hwriting hphase
      have hproceed : (s.unlock (.session, message) failed).proceed failed =
          { s.unlock (.session, message) failed with
            phase := if failed then .returned else .serving } := by
        simp only [ServeOnce.proceed, ServeOnce.unlock, hphase]
      rw [hproceed]
      cases failed with
      | true => exact .of_returned hunlocked.introduced rfl
      | false => exact hunlocked.of_same hphase.symm rfl rfl
  | returned =>
      obtain rfl := hfails hphase
      have hproceed : (s.unlock (.session, message) true).proceed true =
          s.unlock (.session, message) true := by
        simp only [ServeOnce.proceed, ServeOnce.unlock, hphase]
      rw [hproceed]
      exact .of_returned h.introduced hphase

theorem Worded.step (h : Worded s) (hcontrol : Controlled s) (hstep : Step time float s e s') :
    Worded s' := by
  cases hstep with
  | hello hphase _ =>
      refine ⟨fun _ => ⟨(h.dialled hphase).1, ?_⟩, fun hother => ?_, fun hother => ?_,
        h.introduced⟩
      · rintro held ⟨⟩
        exact ⟨rfl, rfl⟩
      · cases hphase.symm.trans hother
      · cases hphase.symm.trans hother
  | noModels hphase hidle =>
      obtain ⟨⟨hello, hwritten, -⟩, hmodels⟩ := h.greeted hphase
      refine .of_serving (hwritten ▸ List.cons_ne_nil _ _) (fun held hheld => ?_) h.introduced rfl
      have hwriting : s.writing = some held := hheld
      simp [idle, hwriting, (hmodels held hheld).1] at hidle
  | modelList hphase _ hmessage =>
      refine ⟨fun hother => ?_, fun _ => ⟨(h.greeted hphase).1, ?_⟩, fun hother => ?_,
        h.introduced⟩
      · cases hphase.symm.trans hother
      · rintro held ⟨⟩
        exact ⟨rfl, type_of_sendModelList hmessage⟩
      · cases hphase.symm.trans hother
  | heartbeat hphase _ =>
      refine .of_serving (h.serving hphase).1 ?_ h.introduced hphase
      rintro held ⟨⟩
      simp [Announces, sendHeartbeat, newEnvelope]
  | endWrite hwriting hfails => exact h.endWrite hwriting hfails
  | @endAnswer failed call message hwriting hfails =>
      have hanswers : ∀ {text : String}, ¬ ∀ held ∈ s.writing,
          held.1 = .session ∧ held.2.type = text := by
        intro text hsession
        cases (hsession _ hwriting).1
      cases hphase : s.phase with
      | dialled => exact absurd (h.dialled hphase).2 hanswers
      | greeted => exact absurd (h.greeted hphase).2 hanswers
      | serving => exact h.unlock hwriting hphase
      | returned =>
          obtain rfl := hfails hphase
          exact .of_returned h.introduced hphase
  | readError _ | report _ _ | skip _ _ | frame _ _ | ask _ _ | discard _ _ =>
      exact h.of_same rfl rfl rfl
  | receive _ _ _ | cancel _ _ => exact .of_returned h.introduced rfl
  | answer hcall hfinish hdone _ =>
      have hlater := hcontrol.of_execution hcall
      cases hphase : s.phase with
      | dialled => exact absurd (.inl hphase) hlater
      | greeted => exact absurd (.inr hphase) hlater
      | serving =>
          refine .of_serving (h.serving hphase).1 ?_ h.introduced rfl
          rintro held ⟨⟩
          obtain ⟨-, hnone | ⟨message, hmessage, htype⟩⟩ := written_of_finish hfinish
          · rw [hdone] at hnone
            cases hnone
          · obtain ⟨rfl, -⟩ := List.cons.inj (Option.some.inj (hdone.symm.trans hmessage))
            exact not_announces_of_answer htype
      | returned => exact .of_returned h.introduced rfl

end Words

/-! ## Answers -/

/-- What was written, and what is being written. -/
def messages (s : ServeOnce Time F) : List (Author × Envelope Time Payload) :=
  s.written ++ s.writing.toList

/-- A call is answered at most once, with the message that it had to write. -/
structure Authored (executions : List (Execution Time F))
    (messages : List (Author × Envelope Time Payload)) : Prop where
  recorded : ∀ call message, (Author.execution call, message) ∈ messages →
    ∃ execution, executions[call]? = some execution ∧ execution.written = some [message]
  once : ∀ call, (messages.map Prod.fst).count (.execution call) ≤ 1

section Answers

variable {executions : List (Execution Time F)}
  {messages fewer : List (Author × Envelope Time Payload)} {call : Nat}
  {old done : Execution Time F} {message : Envelope Time Payload}

theorem Authored.sublist (h : Authored executions messages) (hsub : fewer.Sublist messages) :
    Authored executions fewer where
  recorded call message hmem := h.recorded call message (hsub.subset hmem)
  once call := ((hsub.map Prod.fst).count_le _).trans (h.once call)

/-- `serveOnce` says something. -/
theorem Authored.session (h : Authored executions messages) :
    Authored executions (messages ++ [(.session, message)]) where
  recorded call other hmem := by
    rcases List.mem_append.mp hmem with hold | hnew
    · exact h.recorded call other hold
    · cases List.mem_singleton.mp hnew
  once call := by
    rw [List.map_append, List.count_append]
    exact h.once call

theorem Authored.started (h : Authored executions messages) (more : List (Execution Time F)) :
    Authored (executions ++ more) messages where
  recorded call message hmem := by
    obtain ⟨execution, hcall, hwritten⟩ := h.recorded call message hmem
    obtain ⟨hlt, -⟩ := List.getElem?_eq_some_iff.mp hcall
    exact ⟨execution, (List.getElem?_append_left hlt).trans hcall, hwritten⟩
  once := h.once

/-- A call that has nothing to write yet has written nothing. -/
theorem Authored.not_mem (h : Authored executions messages) (hcall : executions[call]? = some old)
    (hnone : old.written = none) : (Author.execution call, message) ∉ messages := by
  intro hmem
  obtain ⟨execution, hsame, hwritten⟩ := h.recorded call message hmem
  obtain rfl := Option.some.inj (hcall.symm.trans hsame)
  rw [hnone] at hwritten
  cases hwritten

/-- Such a call goes on. -/
theorem Authored.set (h : Authored executions messages) (hcall : executions[call]? = some old)
    (hnone : old.written = none) : Authored (executions.set call done) messages where
  recorded other message hmem := by
    have hne : call ≠ other := by
      rintro rfl
      exact h.not_mem hcall hnone hmem
    obtain ⟨execution, hother, hwritten⟩ := h.recorded other message hmem
    exact ⟨execution, (List.getElem?_set_ne hne).trans hother, hwritten⟩
  once := h.once

/-- Such a call answers. -/
theorem Authored.answer (h : Authored executions messages) (hcall : executions[call]? = some old)
    (hnone : old.written = none) (hdone : done.written = some [message]) :
    Authored (executions.set call done) (messages ++ [(.execution call, message)]) where
  recorded other answer hmem := by
    rcases List.mem_append.mp hmem with hold | hnew
    · exact (h.set hcall hnone).recorded other answer hold
    · cases List.mem_singleton.mp hnew
      obtain ⟨hlt, -⟩ := List.getElem?_eq_some_iff.mp hcall
      exact ⟨done, List.getElem?_set_self hlt, hdone⟩
  once other := by
    rw [List.map_append, List.count_append]
    by_cases hsame : call = other
    · subst hsame
      have hbefore : (messages.map Prod.fst).count (.execution call) = 0 := by
        refine List.count_eq_zero.mpr fun hmem => ?_
        obtain ⟨⟨author, answer⟩, hmem, rfl⟩ := List.mem_map.mp hmem
        exact h.not_mem hcall hnone hmem
      rw [hbefore, List.map_singleton, List.count_singleton_self]
    · have hother : [Author.execution call].count (.execution other) = 0 :=
        List.count_eq_zero.mpr fun hmem =>
          hsame (Author.execution.inj (List.mem_singleton.mp hmem)).symm
      rw [List.map_singleton, hother]
      exact h.once other

variable {time : TextForm Time} {float : TextForm F} {s s' : ServeOnce Time F}
  {e : ServeEvent Time}

theorem messages_of_free (h : s.writing = none) : s.messages = s.written := by
  rw [ServeOnce.messages, h]
  exact List.append_nil _

/-- A message that was being written is written now, or lost. -/
theorem messages_unlock_sublist {held : Author × Envelope Time Payload}
    (h : s.writing = some held) (failed : Bool) :
    (s.unlock held failed).messages.Sublist s.messages := by
  have hfree : (s.unlock held failed).messages = (s.unlock held failed).written :=
    messages_of_free rfl
  rw [hfree, ServeOnce.messages, h]
  cases failed with
  | true => exact List.sublist_append_left _ _
  | false => exact List.Sublist.refl _

theorem Authored.step (h : Authored s.executions s.messages) (hstep : Step time float s e s') :
    Authored s'.executions s'.messages := by
  cases hstep with
  | hello _ hfree | modelList _ hfree _ | heartbeat _ hfree =>
      rw [messages_of_free hfree] at h
      exact h.session
  | @endWrite failed message hwriting _ =>
      rw [executions_proceed, ServeOnce.messages, written_proceed, writing_proceed]
      exact h.sublist (messages_unlock_sublist hwriting failed)
  | endAnswer hwriting _ => exact h.sublist (messages_unlock_sublist hwriting _)
  | noModels _ _ | readError _ | report _ _ | receive _ _ _ | cancel _ _ | skip _ _ => exact h
  | frame _ _ => exact h.started _
  | ask hcall hask =>
      obtain ⟨hstage, -⟩ := Execution.ask_eq_some hask
      exact h.set hcall (by rw [Execution.written, hstage])
  | discard hcall hfinish => exact h.set hcall (written_of_finish hfinish).1
  | answer hcall hfinish hdone hfree =>
      rw [messages_of_free hfree] at h
      exact h.answer hcall (written_of_finish hfinish).1 hdone

end Answers

/-! ## The end of a session -/

/-- Nothing is left of what `serveOnce` has started. -/
structure WoundDown (s : ServeOnce Time F) : Prop where
  loop : s.loop = .absent ∨ s.loop = .ended
  writing : s.writing = none
  executions : ∀ call ∈ s.executions, call.running = false

/-- The guard of a run in which nobody does anything for a session that is over: its
connection takes nothing more, and Ollama ends every request in the same way. -/
def LeftAlone (outcome : OllamaOutcome) (latencyMS : Int64) (stamp : Stamp Time)
    (_ : ServeOnce Time F) (e : ServeEvent Time) (_ : ServeOnce Time F) : Prop :=
  e = .endWrite true ∨ e = .readError ∨ e = .report ∨ (∃ call, e = .ask call) ∨
    ∃ call, e = .answer call outcome latencyMS stamp

end ServeOnce

def LoopPhase.work : LoopPhase → Nat
  | .reading => 2
  | .failed => 1
  | .absent | .ended => 0

def Execution.work (call : Execution Time F) : Nat :=
  match call.stage with
  | .started => 3
  | .asked _ => 2
  | .returned _ _ => 0

namespace ServeOnce

/-- What is left to do. -/
def work (s : ServeOnce Time F) : Nat :=
  s.loop.work + (s.executions.map Execution.work).sum + s.writing.toList.length

section Ending

variable {time : TextForm Time} {float : TextForm F} {s : ServeOnce Time F}

/-- A session that is over and has left something can do some of it, whatever Ollama says. -/
theorem exists_less (outcome : OllamaOutcome) (latencyMS : Int64) (stamp : Stamp Time)
    (hphase : s.phase = .returned) (hcontrol : Controlled s) (hleft : ¬ WoundDown s) :
    ∃ e s', s.next time float e = some s' ∧ LeftAlone outcome latencyMS stamp s e s' ∧
      s'.phase = .returned ∧ s'.work < s.work := by
  cases hwriting : s.writing with
  | some held =>
      refine ⟨.endWrite true, s.unlock held true, ?_, .inl rfl, hphase, ?_⟩
      · have hproceed : (s.unlock held true).proceed true = s.unlock held true := by
          simp only [proceed, unlock, hphase]
        obtain ⟨author, message⟩ := held
        simp only [next, hwriting, Bool.true_eq_false, and_false, if_false, hproceed]
        cases author <;> rfl
      · simp [work, unlock, hwriting]
  | none =>
      cases hloop : s.loop with
      | reading =>
          refine ⟨.readError, { s with loop := .failed }, if_pos hloop, .inr (.inl rfl), hphase, ?_⟩
          simp [work, LoopPhase.work, hloop]
      | failed =>
          have hroom : s.errc = false :=
            hcontrol.errc_of_ne (hloop ▸ LoopPhase.noConfusion)
          refine ⟨.report, { s with loop := .ended, errc := true }, if_pos ⟨hloop, hroom⟩,
            .inr (.inr (.inl rfl)), hphase, ?_⟩
          simp [work, LoopPhase.work, hloop]
      | absent | ended =>
          obtain ⟨execution, hmem, hrunning⟩ :
              ∃ execution ∈ s.executions, execution.running = true := by
            by_contra hnone
            refine hleft ⟨by simp [hloop], hwriting, fun call hcall => ?_⟩
            exact Bool.eq_false_iff.mpr fun hruns => hnone ⟨call, hcall, hruns⟩
          obtain ⟨call, hcall⟩ := List.getElem?_of_mem hmem
          have hset : ∀ new : Execution Time F,
              ((s.executions.set call new).map Execution.work).sum + execution.work =
                (s.executions.map Execution.work).sum + new.work :=
            fun new => Machine.sum_map_set Execution.work hcall new
          cases hstage : execution.stage with
          | started =>
              let asked : Execution Time F :=
                { execution with stage := .asked (askedJob float execution.payload) }
              have hask : execution.ask float = some asked := by
                simp only [Execution.ask, hstage, asked]
              refine ⟨.ask call, { s with executions := s.executions.set call asked }, ?_,
                .inr (.inr (.inr (.inl ⟨call, rfl⟩))), hphase, ?_⟩
              · simp only [next, hcall, Option.bind_some, hask]
              · have hsum := hset asked
                have hold : execution.work = 3 := by rw [Execution.work, hstage]
                have hnew : asked.work = 2 := rfl
                simp only [work]
                omega
          | asked job =>
              let done : Execution Time F := { execution with
                stage := .returned job
                  (executeJob float execution.payload (fun _ => outcome) latencyMS stamp) }
              have hfinish : execution.finish float outcome latencyMS stamp = some done := by
                simp only [Execution.finish, hstage, done]
              have hsum := hset done
              have hold : execution.work = 2 := by rw [Execution.work, hstage]
              have hnew : done.work = 0 := rfl
              obtain ⟨-, hnone | ⟨message, hone, -⟩⟩ := written_of_finish hfinish
              · refine ⟨.answer call outcome latencyMS stamp,
                  { s with executions := s.executions.set call done }, ?_,
                  .inr (.inr (.inr (.inr ⟨call, rfl⟩))), hphase, ?_⟩
                · simp only [next, hcall, Option.bind_some, hfinish, hnone]
                · simp only [work]
                  omega
              · refine ⟨.answer call outcome latencyMS stamp,
                  { s with
                    executions := s.executions.set call done
                    writing := some (.execution call, message) }, ?_,
                  .inr (.inr (.inr (.inr ⟨call, rfl⟩))), hphase, ?_⟩
                · simp only [next, hcall, Option.bind_some, hfinish, hone, lock, hwriting,
                    Option.isSome_none, Bool.false_eq_true, if_false]
                · simp only [work, hwriting, Option.toList_some, Option.toList_none,
                    List.length_singleton, List.length_nil]
                  omega
          | returned job written =>
              rw [Execution.running, hstage] at hrunning
              cases hrunning

end Ending

/-! ## The process -/

/-- The process of a node that has this session alone. -/
def process (cfg : Config) (s : ServeOnce Time F) : Process Time F where
  cfg := cfg
  loops := if s.loop = .reading then 1 else 0
  executions := s.executions

section Processes

variable (time : TextForm Time) (float : TextForm F) (cfg : Config) {s s' : ServeOnce Time F}
  {e : ServeEvent Time}

/-- `serveOnce` starts a read loop. -/
theorem process_serve (hloop : s.loop = .absent) :
    (s.process cfg).next time float .connect = some (s.serve.process cfg) := by
  simp [Process.next, process, serve, hloop]

theorem process_proceed (hcontrol : Controlled s) (failed : Bool) :
    (s.proceed failed).process cfg = s.process cfg ∨
      (s.process cfg).next time float .connect = some ((s.proceed failed).process cfg) := by
  unfold proceed
  split
  · exact .inl rfl
  · rename_i hphase
    exact .inr (process_serve time float cfg (hcontrol.starting (.inr hphase)).1)
  · exact .inl rfl
  · exact .inl rfl

variable {time float}

/-- A step of a session is one of the process, or none. -/
theorem Step.process (h : Step time float s e s') (hcontrol : Controlled s) :
    s'.process cfg = s.process cfg ∨
      ∃ e', (s.process cfg).next time float e' = some (s'.process cfg) := by
  cases h with
  | noModels hphase _ =>
      exact .inr ⟨_, process_serve time float cfg (hcontrol.starting (.inr hphase)).1⟩
  | @endWrite failed message _ _ =>
      have hunlocked : Controlled (s.unlock (.session, message) failed) :=
        ⟨hcontrol.starting, hcontrol.errc⟩
      rcases process_proceed time float cfg hunlocked failed with hsame | hconnect
      · exact .inl hsame
      · exact .inr ⟨_, hconnect⟩
  | readError hloop =>
      refine .inr ⟨.readError, ?_⟩
      simp [Process.next, ServeOnce.process, hloop]
  | report hloop _ =>
      refine .inl ?_
      simp [ServeOnce.process, hloop]
  | frame hloop hpayload =>
      rename_i data payload
      refine .inr ⟨.frame data, ?_⟩
      simp [Process.next, ServeOnce.process, hloop, hpayload, Process.execute]
  | ask hcall hask => exact .inr ⟨.ask _, Process.advance_of_getElem hcall hask⟩
  | discard hcall hfinish =>
      exact .inr ⟨.finish _ _ _ _, Process.advance_of_getElem hcall hfinish⟩
  | answer hcall hfinish _ _ =>
      exact .inr ⟨.finish _ _ _ _, Process.advance_of_getElem hcall hfinish⟩
  | _ => exact .inl rfl

end Processes

/-! ## Runs -/

section Runs

variable {time : TextForm Time} {float : TextForm F} {s : ServeOnce Time F}
  {guard : ServeOnce Time F → ServeEvent Time → ServeOnce Time F → Prop}
  {es : List (ServeEvent Time)}

theorem controlled_of_reaches (h : (machine time float).Reaches guard es s) : Controlled s := by
  refine h.invariant Controlled ?_ fun a e b hcontrol hnext _ => hcontrol.step (step_of_next hnext)
  rintro s rfl
  exact controlled_dialled

theorem worded_of_reaches (h : (machine time float).Reaches guard es s) : Worded s := by
  have hboth : Controlled s ∧ Worded s := by
    refine h.invariant (fun s => Controlled s ∧ Worded s) ?_ ?_
    · rintro s rfl
      refine ⟨controlled_dialled, fun _ => ⟨rfl, ?_⟩, ?_, ?_, .nothing⟩
      · intro held hnone
        cases hnone
      · intro hphase
        cases hphase
      · intro hphase
        cases hphase
    · rintro a e b ⟨hcontrol, hworded⟩ hnext -
      have hstep := step_of_next hnext
      exact ⟨hcontrol.step hstep, hworded.step hcontrol hstep⟩
  exact hboth.2

theorem authored_of_reaches (h : (machine time float).Reaches guard es s) :
    Authored s.executions s.messages := by
  refine h.invariant (fun s => Authored s.executions s.messages) ?_
    fun a e b hauthored hnext _ => hauthored.step (step_of_next hnext)
  rintro s rfl
  refine ⟨fun call message hmem => ?_, fun call => Nat.zero_le 1⟩
  cases hmem

/-- A session is a run of the process. -/
theorem process_of_reaches (cfg : Config) (h : (machine time float).Reaches guard es s)
    (hstart : Process.start (process cfg (dialled : ServeOnce Time F))) :
    ∃ es', (Process.machine time float).Reaches Machine.anyStep es' (s.process cfg) := by
  have hboth : Controlled s ∧
      ∃ es', (Process.machine time float).Reaches Machine.anyStep es' (s.process cfg) := by
    refine h.invariant (fun s => Controlled s ∧
      ∃ es', (Process.machine time float).Reaches Machine.anyStep es' (s.process cfg)) ?_ ?_
    · rintro s rfl
      exact ⟨controlled_dialled, [], .start hstart⟩
    · rintro a e b ⟨hcontrol, es', hreach⟩ hnext -
      have hstep := step_of_next hnext
      refine ⟨hcontrol.step hstep, ?_⟩
      rcases hstep.process cfg hcontrol with hsame | ⟨e', hnext'⟩
      · exact ⟨es', hsame ▸ hreach⟩
      · exact ⟨_, hreach.snoc hnext' trivial⟩
  exact hboth.2

/-- A session that is over winds down, within a bound. -/
theorem exists_woundDown (outcome : OllamaOutcome) (latencyMS : Int64) (stamp : Stamp Time)
    (hcontrol : Controlled s) (hphase : s.phase = .returned) :
    ∃ es s', (machine time float).Steps (LeftAlone outcome latencyMS stamp) s es s' ∧
      WoundDown s' ∧ es.length ≤ s.work := by
  let I : ServeOnce Time F → Prop := fun s => Controlled s ∧ s.phase = .returned
  have hless : ∀ a, I a → ¬ WoundDown a → ∃ e b, (machine time float).step a e b ∧
      LeftAlone outcome latencyMS stamp a e b ∧ I b ∧ b.work < a.work := by
    intro a ⟨hcontrol, hphase⟩ hleft
    obtain ⟨e, b, hnext, halone, hreturned, hless⟩ :=
      exists_less outcome latencyMS stamp hphase hcontrol hleft
    exact ⟨e, b, hnext, halone, ⟨hcontrol.step (step_of_next hnext), hreturned⟩, hless⟩
  obtain ⟨es, s', hsteps, -, hdown, hlength⟩ :=
    Machine.exists_end I WoundDown work hless ⟨hcontrol, hphase⟩
  exact ⟨es, s', hsteps, hdown, by omega⟩

end Runs

end ServeOnce

end Nuvonode.Node
