/-
  Handler/Session.lean --- the read loop of a provider's connection.

  `Handler.ProviderWS` reads a frame, decodes its envelope and then the payload of its
  type, and does what the frame asks for, one statement after the other, before it reads
  the next one.  What a frame decodes to is a parameter: nothing is asked of the decoder.
  The statements are those of the market, and each of them may also fail.
-/
import Nuvonode.Handler.Registration

set_option autoImplicit false

namespace Nuvonode.Handler

open Nuvonode.Foundation Nuvonode.Database Nuvonode.Repository Nuvonode.Service Nuvonode.Ws

/-! ## Frames -/

/-- `ws.Envelope`, as far as the loop reads it. -/
structure Envelope where
  type : String
  payload : List UInt8
  deriving DecidableEq

/-- `json.Unmarshal` into the types of the messages; `none` is an error. -/
structure Decoder where
  envelope : List UInt8 → Option Envelope
  hello : List UInt8 → Option HelloPayload
  heartbeat : List UInt8 → Option HeartbeatPayload
  hardwareReport : List UInt8 → Option HardwareReportPayload
  modelList : List UInt8 → Option ModelListPayload
  /-- The payload of a `provider.job_result`. -/
  jobResult : List UInt8 → Option JobResultPayload
  /-- The payload of a `provider.job_error`: its job, its code and its message. -/
  jobError : List UInt8 → Option (String × String × String)

/-- What a frame leaves to be done in the database. -/
inductive Task where
  | hello (payload : HelloPayload)
  | heartbeat (status : String) (currentJobID : Option String)
  | hardwareReport (cpuModel : String) (ramMB : Int64) (gpuName : String) (gpuVRAMMB : Int64)
      (gpuDriver : String)
  /-- The models that are left, each with its digest. -/
  | modelList (runtime : String) (models : List (String × String))
  deriving DecidableEq

/-- What the loop does with a frame. -/
inductive Received where
  /-- It is answered with an error. -/
  | refuse (error : String)
  | ignore
  | start (task : Task)
  | complete (frame : CompletionFrame)
  deriving DecidableEq

/-- The map from the names of a model list to their digests; the last digest of a name
counts. -/
def modelDigests (models : List RuntimeModelEntry) : List (String × String) :=
  models.foldl (fun digests model =>
    Table.upsert Prod.fst digests (model.runtimeModelName, model.digest)) []

/-- A hardware report, with the first of its GPUs. -/
def hardwareTask (payload : HardwareReportPayload) : Task :=
  match payload.gpus with
  | [] => .hardwareReport payload.cpuModel payload.ramMB "" 0 ""
  | gpu :: _ => .hardwareReport payload.cpuModel payload.ramMB gpu.name gpu.vramMB gpu.driver

/-- A model list without models has nothing to do. -/
def modelListTask (runtime : String) : List (String × String) → Option Task
  | [] => none
  | models => some (.modelList runtime models)

/-- The body of the loop, up to its statements. -/
def receive (D : Decoder) (greeted : Bool) (data : List UInt8) : Received :=
  match D.envelope data with
  | none => .refuse "invalid_message"
  | some env =>
      if env.type = "provider.hello" then
        match D.hello env.payload with
        | none => .refuse "invalid_hello"
        | some payload =>
            if payload.instanceKey = "" then .refuse "invalid_hello" else .start (.hello payload)
      else if env.type = "provider.heartbeat" then
        if !greeted then .refuse "hello_required"
        else match D.heartbeat env.payload with
          | none => .refuse "invalid_heartbeat"
          | some payload => .start (.heartbeat payload.status payload.currentJobID)
      else if env.type = "provider.hardware_report" then
        if !greeted then .refuse "hello_required"
        else match D.hardwareReport env.payload with
          | none => .refuse "invalid_hardware_report"
          | some payload => .start (hardwareTask payload)
      else if env.type = "provider.model_list" then
        if !greeted then .refuse "hello_required"
        else match D.modelList env.payload with
          | none => .refuse "invalid_model_list"
          | some payload =>
              (modelListTask payload.runtime (modelDigests payload.models)).elim .ignore .start
      else if env.type = "provider.job_result" then
        match D.jobResult env.payload with
        | none => .ignore
        | some payload => .complete (.jobResult payload.jobID payload.content payload.finishReason
            payload.usage payload.latencyMS)
      else if env.type = "provider.job_error" then
        match D.jobError env.payload with
        | none => .ignore
        | some (jobID, errorCode, errorMessage) =>
            .complete (.jobError jobID errorCode errorMessage)
      else .ignore

/-- Whether a frame decodes: its envelope, and the payload where its type has one. -/
def Decoder.decodes (D : Decoder) (data : List UInt8) : Bool :=
  (D.envelope data).any fun env =>
    if env.type = "provider.hello" then (D.hello env.payload).isSome
    else if env.type = "provider.heartbeat" then (D.heartbeat env.payload).isSome
    else if env.type = "provider.hardware_report" then (D.hardwareReport env.payload).isSome
    else if env.type = "provider.model_list" then (D.modelList env.payload).isSome
    else if env.type = "provider.job_result" then (D.jobResult env.payload).isSome
    else if env.type = "provider.job_error" then (D.jobError env.payload).isSome
    else true

/-- A frame that does not decode is answered with an error or ignored. -/
theorem receive_of_not_decodes {D : Decoder} {data : List UInt8} (h : D.decodes data = false)
    (greeted : Bool) :
    (∃ error, receive D greeted data = .refuse error) ∨ receive D greeted data = .ignore := by
  unfold Decoder.decodes at h
  unfold receive
  cases henv : D.envelope data with
  | none => exact .inl ⟨_, rfl⟩
  | some env =>
      rw [henv, Option.any_some] at h
      simp only
      split_ifs at h ⊢ with hhello hheartbeat hhardware hlist hresult herror
      all_goals first
        | exact .inl ⟨_, rfl⟩
        | (rw [Option.isSome_eq_false_iff, Option.isNone_iff_eq_none] at h
           rw [h]
           first | exact .inl ⟨_, rfl⟩ | exact .inr rfl)

/-! ## The loops -/

/-- What a statement of a task takes from outside. -/
structure TaskEnv where
  newID : UUID
  publicID : String
  unseen : List String
  matched : Option ModelVersionRow
  /-- The model that the loop over the map comes to next, and its digest. -/
  model : String × String
  deriving DecidableEq

/-- The statement of a task that the market knows as a frame. -/
def Task.frame (env : TaskEnv) : Task → Option ProviderFrame
  | .hello _ => none
  | .heartbeat status currentJobID => some (.heartbeat status currentJobID)
  | .hardwareReport cpuModel ramMB gpuName gpuVRAMMB gpuDriver =>
      some (.hardwareReport cpuModel ramMB gpuName gpuVRAMMB gpuDriver)
  | .modelList runtime models =>
      if env.model ∈ models then
        some (.modelList env.newID env.publicID env.unseen env.matched runtime env.model.1
          env.model.2)
      else none

/-- What is left of a task after its statement. -/
def Task.rest (env : TaskEnv) : Task → Option Task
  | .modelList runtime models => modelListTask runtime (models.erase env.model)
  | _ => none

/-- What is written to the connection when a statement fails. -/
def Task.failure : Task → String
  | .hello _ => "hello_failed"
  | .heartbeat .. => "heartbeat_failed"
  | .hardwareReport .. => "hardware_report_failed"
  | .modelList .. => "model_list_failed"

/-- The market with the read loops of its sessions. -/
structure Loops where
  market : Market
  /-- What a session has still to do of the frame it has read. -/
  task : ConnID → Option Task
  /-- The errors that were written, and to which connections. -/
  errors : List (ConnID × String)

inductive LoopEvent where
  /-- Anything of the market but what the loops do. -/
  | market (e : MarketEvent)
  /-- A session reads a frame of any bytes. -/
  | read (conn : ConnID) (data : List UInt8)
  /-- The next statement of a session's frame. -/
  | run (conn : ConnID) (env : TaskEnv)
  /-- The database fails the next statement of a session's frame. -/
  | fail (conn : ConnID)
  deriving DecidableEq

/-- The events of the market that a frame stands for. -/
def framed : MarketEvent → Bool
  | .hello .. | .frame .. | .api (.network (.complete ..)) => true
  | _ => false

/-- The session whose loop returns, as it cannot read any more. -/
def returns : MarketEvent → Option ConnID
  | .api (.network (.drop conn)) => some conn
  | _ => none

namespace Loops

/-- The database. -/
def db (s : Loops) : DB := s.market.db

def session (s : Loops) (conn : ConnID) : Option Session := s.market.api.network.session conn

/-- The loops with another market. -/
def on (s : Loops) (market : Market) : Loops := { s with market }

/-- A session has this left to do. -/
def setTask (s : Loops) (conn : ConnID) (task : Option Task) : Loops :=
  { s with task := Function.update s.task conn task }

/-- An error is written to a connection. -/
def write (s : Loops) (conn : ConnID) (error : String) : Loops :=
  { s with errors := s.errors ++ [(conn, error)] }

section Next

variable (P : Platform) (cfg : Config) (D : Decoder)

/-- What an event does; `none` where it cannot happen. -/
def next (s : Loops) : LoopEvent → Option Loops
  | .market e =>
      if framed e || (returns e).any fun conn => (s.task conn).isSome then none
      else (s.market.next P cfg e).map s.on
  | .read conn data => do
      let session ← s.session conn
      if session.phase = .reading ∧ s.task conn = none then
        match receive D session.instanceID.isSome data with
        | .refuse error => some (s.write conn error)
        | .ignore => some s
        | .start task => some (s.setTask conn (some task))
        | .complete frame =>
            (s.market.next P cfg (.api (.network (.complete conn frame)))).map s.on
      else none
  | .run conn env => do
      let session ← s.session conn
      let task ← s.task conn
      match task with
      | .hello payload =>
          let market ← s.market.next P cfg (.hello conn env.newID env.publicID payload)
          match upsertInstance s.market.clock env.newID session.providerID env.publicID payload
              s.db with
          | .ok _ => some ((s.on market).setTask conn none)
          | .error _ => some (((s.on market).setTask conn none).write conn task.failure)
      | task =>
          let instanceID ← session.instanceID
          let f ← task.frame env
          let market ← s.market.next P cfg (.frame conn f)
          match f.run s.market.clock session.providerID instanceID s.db with
          | .ok _ => some ((s.on market).setTask conn (task.rest env))
          | .error _ => some (((s.on market).setTask conn none).write conn task.failure)
  | .fail conn => do
      let task ← s.task conn
      match task with
      | .hello _ =>
          let network ← s.market.api.network.next (.hello conn none)
          some (((s.on (s.market.serving (s.market.api.connected network))).setTask conn none).write
            conn task.failure)
      | task => some ((s.setTask conn none).write conn task.failure)

end Next

end Loops

/-- The market with its read loops, none of which has read anything at first. -/
abbrev loopMachine (P : Platform) (cfg : Config) (D : Decoder) : Machine Loops LoopEvent :=
  Machine.ofNext (fun s => (marketMachine P cfg).start s.market ∧ s.task = fun _ => none)
    (Loops.next P cfg D)

/-! ## What an event can do -/

/-- One step of the loops. -/
inductive Loops.Step (P : Platform) (cfg : Config) (D : Decoder) (s : Loops) :
    LoopEvent → Loops → Prop where
  | market {e : MarketEvent} {market : Market} : framed e = false →
      s.market.Step P cfg e market → s.Step P cfg D (.market e) (s.on market)
  | refuse {conn : ConnID} {data : List UInt8} {error : String} :
      s.Step P cfg D (.read conn data) (s.write conn error)
  | ignore {conn : ConnID} {data : List UInt8} : s.Step P cfg D (.read conn data) s
  | start {conn : ConnID} {data : List UInt8} {greeted : Bool} {task : Task} :
      receive D greeted data = .start task →
      s.Step P cfg D (.read conn data) (s.setTask conn (some task))
  | complete {conn : ConnID} {data : List UInt8} {greeted : Bool} {frame : CompletionFrame}
      {market : Market} : receive D greeted data = .complete frame →
      s.market.Step P cfg (.api (.network (.complete conn frame))) market →
      s.Step P cfg D (.read conn data) (s.on market)
  | hello {conn : ConnID} {env : TaskEnv} {session : Session} {payload : HelloPayload}
      {market : Market} {errors : List (ConnID × String)} : s.session conn = some session →
      s.task conn = some (.hello payload) →
      s.market.next P cfg (.hello conn env.newID env.publicID payload) = some market →
      s.Step P cfg D (.run conn env) { (s.on market).setTask conn none with errors }
  | statement {conn : ConnID} {env : TaskEnv} {session : Session} {task : Task}
      {instanceID : UUID} {f : ProviderFrame} {db : DB} : s.session conn = some session →
      s.task conn = some task → session.instanceID = some instanceID → task.frame env = some f →
      f.run s.market.clock session.providerID instanceID s.db = .ok db →
      s.market.Step P cfg (.frame conn f) (s.market.on db) →
      s.Step P cfg D (.run conn env) ((s.on (s.market.on db)).setTask conn (task.rest env))
  | refuseStatement {conn : ConnID} {env : TaskEnv} {task : Task} {f : ProviderFrame}
      {error : String} : s.task conn = some task → task.frame env = some f →
      s.Step P cfg D (.run conn env) ((s.setTask conn none).write conn error)
  | failHello {conn : ConnID} {payload : HelloPayload} {network : Network} {error : String} :
      s.task conn = some (.hello payload) →
      s.market.api.network.next (.hello conn none) = some network →
      s.Step P cfg D (.fail conn)
        (((s.on (s.market.serving (s.market.api.connected network))).setTask conn none).write conn
          error)
  | fail {conn : ConnID} {task : Task} {error : String} : s.task conn = some task →
      (∀ payload, task ≠ .hello payload) →
      s.Step P cfg D (.fail conn) ((s.setTask conn none).write conn error)

section Steps

variable {P : Platform} {cfg : Config} {D : Decoder} {s s' : Loops} {e : LoopEvent}

/-- A frame that is not ignored, and whose statement succeeds or fails. -/
theorem next_of_frame {m m' : Market} {conn : ConnID} {f : ProviderFrame} {session : Session}
    {instanceID : UUID} (h : m.next P cfg (.frame conn f) = some m')
    (hsession : m.api.network.session conn = some session)
    (hinstance : session.instanceID = some instanceID) :
    m' = m.on (orSame m.db (f.run m.clock session.providerID instanceID m.db)) := by
  obtain ⟨other, hother, h⟩ := Option.bind_eq_some_iff.mp h
  obtain rfl := Option.some.inj (hsession.symm.trans hother)
  split at h
  · rw [hinstance] at h
    exact (Option.some.inj h).symm
  · cases h

/-- A hello, whose statement succeeds or fails. -/
theorem next_of_hello {m m' : Market} {conn : ConnID} {id : UUID} {publicID : String}
    {payload : HelloPayload} {session : Session}
    (h : m.next P cfg (.hello conn id publicID payload) = some m')
    (hsession : m.api.network.session conn = some session) :
    (∃ row, upsertInstance m.clock id session.providerID publicID payload m.db = .ok (row, m'.db) ∧
        m.api.network.next (.hello conn (some row.id)) = some m'.api.network) ∨
      ∃ err, upsertInstance m.clock id session.providerID publicID payload m.db = .error err ∧
        m'.db = m.db ∧ m.api.network.next (.hello conn none) = some m'.api.network := by
  obtain ⟨api, hapi, rfl⟩ := Option.map_eq_some_iff.mp h
  obtain ⟨other, hother, hapi⟩ := Option.bind_eq_some_iff.mp hapi
  obtain rfl := Option.some.inj (hsession.symm.trans hother)
  split at hapi
  · cases hapi
  · split at hapi
    · rename_i err hupsert
      obtain ⟨network, hnext, rfl⟩ := Option.map_eq_some_iff.mp hapi
      exact .inr ⟨err, hupsert, rfl, hnext⟩
    · rename_i row db hupsert
      obtain ⟨network, hnext, rfl⟩ := Option.map_eq_some_iff.mp hapi
      exact .inl ⟨row, hupsert, hnext⟩

theorem Loops.step_of_next (h : s.next P cfg D e = some s') : s.Step P cfg D e s' := by
  cases e with
  | market e =>
      simp only [Loops.next] at h
      split at h
      · cases h
      · rename_i hown
        obtain ⟨market, hnext, rfl⟩ := Option.map_eq_some_iff.mp h
        simp only [Bool.or_eq_true, not_or, Bool.not_eq_true] at hown
        exact .market hown.1 (Market.step_of_next hnext)
  | read conn data =>
      obtain ⟨session, hsession, h⟩ := Option.bind_eq_some_iff.mp h
      split at h
      · split at h
        · cases h
          exact .refuse
        · cases h
          exact .ignore
        · rename_i task hreceive
          cases h
          exact .start hreceive
        · rename_i frame hreceive
          obtain ⟨market, hnext, rfl⟩ := Option.map_eq_some_iff.mp h
          exact .complete hreceive (Market.step_of_next hnext)
      · cases h
  | run conn env =>
      obtain ⟨session, hsession, h⟩ := Option.bind_eq_some_iff.mp h
      obtain ⟨task, htask, h⟩ := Option.bind_eq_some_iff.mp h
      split at h
      · rename_i payload
        obtain ⟨market, hnext, h⟩ := Option.bind_eq_some_iff.mp h
        split at h
        · cases h
          exact .hello hsession htask hnext
        · cases h
          exact .hello hsession htask hnext
      · obtain ⟨instanceID, hinstance, h⟩ := Option.bind_eq_some_iff.mp h
        obtain ⟨f, hframe, h⟩ := Option.bind_eq_some_iff.mp h
        obtain ⟨market, hnext, h⟩ := Option.bind_eq_some_iff.mp h
        have hmarket := next_of_frame hnext hsession hinstance
        split at h
        · rename_i db hrun
          cases h
          have hrun' : f.run s.market.clock session.providerID instanceID s.market.db = .ok db :=
            hrun
          rw [hrun', orSame] at hmarket
          rw [hmarket] at hnext ⊢
          exact .statement hsession htask hinstance hframe hrun (Market.step_of_next hnext)
        · rename_i err hrun
          cases h
          have hrun' :
              f.run s.market.clock session.providerID instanceID s.market.db = .error err :=
            hrun
          rw [hrun', orSame] at hmarket
          rw [hmarket]
          exact .refuseStatement htask hframe
  | fail conn =>
      obtain ⟨task, htask, h⟩ := Option.bind_eq_some_iff.mp h
      split at h
      · obtain ⟨network, hnext, h⟩ := Option.bind_eq_some_iff.mp h
        cases h
        exact .failHello htask hnext
      · rename_i hother
        cases h
        exact .fail htask hother

end Steps

end Nuvonode.Handler
