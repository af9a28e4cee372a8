/-
  Contract/Sessions.lean --- what a node says in a session, and what it leaves behind.

  A session is a call of `serveOnce` with its read loop and its calls of `executeJob`, which
  write side by side.  The server handles nothing before a hello, so a node must begin with
  one; and a node reconnects for ever, so a session must leave nothing behind.
-/
import Nuvonode.Contract.NodeLimits
import Nuvonode.Node.Session

set_option autoImplicit false

namespace Nuvonode.Contract

open Nuvonode.Foundation Nuvonode.Ws.Wire Nuvonode.Node

variable {Time F : Type}

/-- In every run of a session, a hello is the first message, the models are the second, if
they come at all, and neither comes again; a call has at most one answer on the connection,
the one that it had to write; the read loop never waits for room in `errc`; and the session
is a run of the process.  Once `serveOnce` has returned, whatever it has started can end
within a bound, without anybody's help and whatever Ollama says, as long as Ollama ends every
request: the client has no timeout of its own, and a call of a job without `timeout_seconds` has
no deadline. -/
theorem node_sessions_are_orderly (time : TextForm Time) (float : TextForm F)
    {es : List (ServeEvent Time)} {s : ServeOnce Time F}
    (hreach : (ServeOnce.machine time float).Reaches Machine.anyStep es s) :
    ServeOnce.Introduced (s.written.map Prod.snd) ∧
      ServeOnce.Authored s.executions s.written ∧
      (s.loop = .failed → s.errc = false) ∧
      (∀ cfg, (ServeOnce.process cfg (ServeOnce.dialled : ServeOnce Time F)).start →
        ∃ es', (Process.machine time float).Reaches Machine.anyStep es' (s.process cfg)) ∧
      (s.phase = .returned → ∀ outcome latencyMS stamp, ∃ es' s',
        (ServeOnce.machine time float).Steps
          (ServeOnce.LeftAlone outcome latencyMS stamp) s es' s' ∧
        s'.WoundDown ∧ es'.length ≤ s.work) := by
  have hcontrol := ServeOnce.controlled_of_reaches hreach
  refine ⟨(ServeOnce.worded_of_reaches hreach).introduced, ?_,
    fun hloop => hcontrol.errc_of_ne (hloop ▸ LoopPhase.noConfusion),
    fun cfg hstart => ServeOnce.process_of_reaches cfg hreach hstart,
    fun hphase outcome latencyMS stamp =>
      ServeOnce.exists_woundDown outcome latencyMS stamp hcontrol hphase⟩
  have hall := ServeOnce.authored_of_reaches hreach
  exact hall.sublist (List.sublist_append_left _ _)

/-- A session introduces itself, reads a job and beats; then its context is done. -/
def nodeSessionEvents : List (ServeEvent Unit) :=
  [.hello ⟨"1", ()⟩ "inst_1" "http://127.0.0.1:11434" "box" "linux" "amd64", .endWrite false,
    .modelList ⟨"2", ()⟩ (.ok [⟨"qwen:7b", "sha256:1", 4⟩]), .endWrite false,
    .frame (some (dispatch sampleTime sampleFloat () (requestPayload "job_1" "qwen"))), .ask 0,
    .heartbeat ⟨"3", ()⟩, .endWrite false, .cancel]

/-- The session after these events. -/
def sampleNodeSession : ServeOnce Unit Bool :=
  (Machine.exec (ServeOnce.next sampleTime sampleFloat) (fun _ _ _ => true) .dialled
    nodeSessionEvents).getD .dialled

/-- The sample session is over while its job runs, and winds down. -/
theorem sample_session_winds_down :
    sampleNodeSession.written.map (fun held => held.2.type) =
        ["provider.hello", "provider.model_list", "provider.heartbeat"] ∧
      sampleNodeSession.executions.map Execution.running = [true] ∧
      ∃ es s, (ServeOnce.machine sampleTime sampleFloat).Steps
          (ServeOnce.LeftAlone (.failed "context canceled") 0 ⟨"4", ()⟩) sampleNodeSession es s ∧
        s.WoundDown := by
  have hrun : (Machine.exec (ServeOnce.next sampleTime sampleFloat) (fun _ _ _ => true) .dialled
      nodeSessionEvents).isSome := by
    decide +kernel
  have hreach : (ServeOnce.machine sampleTime sampleFloat).Reaches Machine.anyStep nodeSessionEvents
      sampleNodeSession :=
    ⟨.dialled, rfl, Machine.steps_of_isSome (fun _ _ _ _ => trivial) hrun⟩
  have hreturned : sampleNodeSession.phase = .returned := by
    decide +kernel
  obtain ⟨-, -, -, -, hwinds⟩ := node_sessions_are_orderly sampleTime sampleFloat hreach
  obtain ⟨es, s, hsteps, hdown, -⟩ := hwinds hreturned (.failed "context canceled") 0 ⟨"4", ()⟩
  refine ⟨?_, ?_, es, s, hsteps, hdown⟩
  · decide +kernel
  · decide +kernel

end Nuvonode.Contract
