/-
  Contract/Lanes.lean --- a session changes the rows of its own provider.

  The log of a run holds what the hellos of every session have led to: the instance that
  one has upserted, or nothing where it failed.  The variable `instance` of a loop is what
  the latest of them says, and every statement of a session leaves all rows as they are
  but those of one instance of its provider.
-/
import Nuvonode.Contract.Spending
import Nuvonode.Foundation.History
import Nuvonode.Handler.Session

set_option autoImplicit false

namespace Nuvonode.Contract

open Nuvonode.Foundation Nuvonode.Database Nuvonode.Repository Nuvonode.Service Nuvonode.Handler
  Nuvonode.Ws

/-! ## What a statement of a session changes -/

/-- The rows of instances with an id are those of a provider. -/
def Owns (providerID instanceID : UUID) (db : DB) : Prop :=
  ∀ inst ∈ db.catalog.instances, inst.id = instanceID → inst.providerID = providerID

/-- Nothing is changed but the rows of one instance, which is one of the provider. -/
structure InLane (providerID instanceID : UUID) (db db' : DB) : Prop where
  owned : Owns providerID instanceID db'
  instances : db'.catalog.instances.filter (fun inst => decide (inst.id ≠ instanceID)) =
    db.catalog.instances.filter fun inst => decide (inst.id ≠ instanceID)
  advertisements : db'.catalog.advertisements.filter (fun ad =>
      decide (ad.providerID ≠ providerID ∨ ad.providerInstanceID ≠ instanceID)) =
    db.catalog.advertisements.filter fun ad =>
      decide (ad.providerID ≠ providerID ∨ ad.providerInstanceID ≠ instanceID)
  hardwareReports : db'.catalog.hardwareReports.filter (fun report =>
      decide (report.providerInstanceID ≠ instanceID)) =
    db.catalog.hardwareReports.filter fun report =>
      decide (report.providerInstanceID ≠ instanceID)
  others : db' = { db with catalog := { db.catalog with
    instances := db'.catalog.instances
    advertisements := db'.catalog.advertisements
    hardwareReports := db'.catalog.hardwareReports } }

section Statements

variable {now : Nat} {providerID instanceID : UUID} {db db' : DB}

theorem InLane.refl (howns : Owns providerID instanceID db) :
    InLane providerID instanceID db db := ⟨howns, rfl, rfl, rfl, rfl⟩

/-- A hello changes the row that it returns. -/
theorem inLane_upsertInstance {id : UUID} {publicID : String} {payload : HelloPayload}
    {row : InstanceRow} (hunique : Table.Unique InstanceRow.id db.catalog.instances)
    (h : upsertInstance now id providerID publicID payload db = .ok (row, db')) :
    InLane providerID row.id db db' := by
  unfold upsertInstance at h
  split at h
  · cases h
  · unfold upsertProviderInstance at h
    split at h
    · split at h
      · rename_i old hfound
        cases h
        have hmem : old ∈ db.catalog.instances := List.mem_of_find?_eq_some hfound
        have howner : old.providerID = providerID ∧ old.instanceKey = payload.instanceKey := by
          simpa using List.find?_some hfound
        refine ⟨?_, ?_, rfl, rfl, rfl⟩
        · intro inst hinst hid
          obtain ⟨before, hbefore, rfl⟩ := Table.mem_update.mp hinst
          split at hid
          · rename_i hsame
            rw [if_pos hsame]
            obtain rfl : before = old := List.inj_on_of_nodup_map hunique hbefore hmem hsame
            exact howner.1
          · exact absurd hid ‹_›
        · exact Table.filter_update_of_apart fun inst hinst =>
            ⟨by simp [hinst, InstanceRow.connect], by simp [hinst, InstanceRow.connect]⟩
      · split at h
        · cases h
        · split at h
          · cases h
          · rename_i hfree
            cases h
            refine ⟨?_, Table.filter_insert_of_apart (by simp), rfl, rfl, rfl⟩
            intro inst hinst hid
            rcases List.mem_append.mp hinst with hold | hnew
            · exact absurd (List.any_eq_true.mpr ⟨inst, hold, by simp [hid]⟩) hfree
            · rw [List.mem_singleton.mp hnew]
    · cases h

/-- An advertisement changes the rows of its columns. -/
theorem inLane_upsertAdvertisement {id : UUID} {publicID : String} {unseen : List String}
    {matched : Option ModelVersionRow} {runtime runtimeModelName digest : String}
    (howns : Owns providerID instanceID db)
    (h : upsertProviderModelAdvertisement id publicID unseen matched providerID instanceID runtime
      runtimeModelName digest db = .ok db') : InLane providerID instanceID db db' := by
  simp only [upsertProviderModelAdvertisement] at h
  split at h
  · cases h
  · split at h
    · cases h
      refine ⟨howns, rfl, Table.filter_map_of_apart fun ad _ => ?_, rfl, rfl⟩
      split
      · rename_i hfound
        obtain ⟨hnames, -⟩ := Bool.and_eq_true_iff.mp hfound
        simp only [AdvertisementRow.names, decide_eq_true_eq] at hnames
        exact .inr ⟨by simp [hnames.1, hnames.2.1], by simp [hnames.1, hnames.2.1]⟩
      · exact .inl rfl
    · split at h
      · cases h
      · split at h
        · cases h
        · cases h
          exact ⟨howns, rfl, Table.filter_insert_of_apart (by simp [AdvertisementRow.pending]), rfl,
            rfl⟩

/-- A frame changes the rows of the session's instance. -/
theorem inLane_frame {f : ProviderFrame} (howns : Owns providerID instanceID db)
    (h : f.run now providerID instanceID db = .ok db') : InLane providerID instanceID db db' := by
  cases f with
  | heartbeat status currentJobID =>
      simp only [ProviderFrame.run, providerHeartbeat] at h
      split at h
      · cases h
      · obtain ⟨parsed, job, -, rfl⟩ := updateProviderHeartbeat_eq_ok h
        refine ⟨?_, ?_, rfl, rfl, rfl⟩
        · intro inst hinst hid
          obtain ⟨old, hold, rfl⟩ := Table.mem_update.mp hinst
          split at hid
          · rename_i hsame
            rw [if_pos hsame]
            exact howns old hold hsame
          · exact absurd hid ‹_›
        · exact Table.filter_update_of_apart fun inst hinst =>
            ⟨by simp [hinst], by simp [hinst, InstanceRow.beat]⟩
  | hardwareReport cpuModel ramMB gpuName gpuVRAMMB gpuDriver =>
      obtain ⟨row, hrow, rfl⟩ := insertHardwareReport_eq_ok h
      exact ⟨howns, rfl, rfl, Table.filter_insert_of_apart (by simp [hrow]), rfl⟩
  | modelList id publicID unseen matched runtime runtimeModelName digest =>
      simp only [ProviderFrame.run, providerModelListEntry] at h
      split at h
      · cases h
        exact .refl howns
      · exact inLane_upsertAdvertisement howns h

end Statements

/-! ## The variable `instance` -/

section Sessions

variable {P : Platform} {cfg : Config} {conn : ConnID}

/-- Without a hello a session has the instance that it had, and a new one has none. -/
theorem session_of_step {n n' : Network} {e : NetworkEvent} (h : n.Step e n')
    (hquiet : ∀ instanceID, e ≠ .hello conn instanceID) {session : Session}
    (hsession : n'.session conn = some session) :
    (n.session conn = none ∧ session.instanceID = none) ∨
      ∃ old, n.session conn = some old ∧ session.instanceID = old.instanceID := by
  rcases h.session_before hsession with ⟨rfl, hnone⟩ | ⟨old, hold, -, hsame | ⟨instanceID, heq, -⟩⟩
  · cases h with
    | accept hfree => exact .inl ⟨hfree, hnone⟩
  · exact .inr ⟨old, hold, hsame⟩
  · exact absurd heq (hquiet instanceID)

/-- Where the market takes no hello of a session, the network does not. -/
theorem quiet_of_step {m m' : Market} {e : MarketEvent} (h : m.Step P cfg e m')
    (hquiet : ∀ id publicID payload, e ≠ .hello conn id publicID payload) :
    m'.api.network = m.api.network ∨
      ∃ e', m.api.network.Step e' m'.api.network ∧
        ∀ instanceID, e' ≠ .hello conn instanceID := by
  cases h with
  | api hlocal hstep =>
      cases hstep with
      | @network e network hshared hnext =>
          refine .inr ⟨e, Network.step_of_next hnext, ?_⟩
          rintro instanceID rfl
          cases hshared
      | connect _ hnext | dispatch _ _ hnext =>
          exact .inr ⟨_, Network.step_of_next hnext, fun _ heq => NetworkEvent.noConfusion heq⟩
      | hello | refuseHello => cases hlocal
      | _ => exact .inl rfl
  | hello hstep =>
      cases hstep with
      | refuseHello hnext | hello _ _ _ hnext =>
          refine .inr ⟨_, Network.step_of_next hnext, ?_⟩
          rintro instanceID ⟨⟩
          exact hquiet _ _ _ rfl
  | @request _ _ r _ _ _ => cases r <;> exact .inl rfl
  | disconnect _ hnext =>
      exact .inr ⟨_, Network.step_of_next hnext, fun _ heq => NetworkEvent.noConfusion heq⟩
  | _ => exact .inl rfl

end Sessions

/-! ## The log of the hellos -/

/-- The instance that the statement of a hello returns, if it returns one. -/
def upserted (s : Loops) (env : TaskEnv) (session : Session) (payload : HelloPayload) :
    Option UUID :=
  match upsertInstance s.market.clock env.newID session.providerID env.publicID payload s.db with
  | .ok (row, _) => some row.id
  | .error _ => none

/-- What the hello of a session has led to, where an event is its statement. -/
def greetings (s : Loops) (e : LoopEvent) (_ : Loops) : List (ConnID × Option UUID) :=
  match e with
  | .run conn env =>
      match s.task conn, s.session conn with
      | some (.hello payload), some session => [(conn, upserted s env session payload)]
      | _, _ => []
  | .fail conn =>
      match s.task conn with
      | some (.hello _) => [(conn, none)]
      | _ => []
  | _ => []

/-- What an entry says of a session. -/
def greetingOf (conn : ConnID) (entry : ConnID × Option UUID) : Option (Option UUID) :=
  if entry.1 = conn then some entry.2 else none

/-- The loops with the log of their hellos. -/
abbrev laneMachine (P : Platform) (cfg : Config) (D : Decoder) :
    Machine (Loops × List (ConnID × Option UUID)) LoopEvent :=
  (loopMachine P cfg D).recorded greetings

/-- The instance of a session is the one of its latest hello, and one of its provider. -/
structure Laned (log : List (ConnID × Option UUID)) (s : Loops) : Prop where
  linked : Linked (registry s.db) s.market.api.network
  inst : ∀ conn session, s.session conn = some session →
    session.instanceID = (latest (greetingOf conn) log).join
  silent : ∀ conn, s.session conn = none → latest (greetingOf conn) log = none

section Runs

variable {P : Platform} {cfg : Config} {D : Decoder} {s s' : Loops} {e : LoopEvent}
  {log : List (ConnID × Option UUID)} {es : List LoopEvent}

/-- A session agrees with the log after a step of the network without a hello of it. -/
theorem Laned.quiet (h : Laned log s) {conn : ConnID} {n' : Network} {session : Session}
    (hstep : n' = s.market.api.network ∨ ∃ e', s.market.api.network.Step e' n' ∧
      ∀ instanceID, e' ≠ .hello conn instanceID)
    (hsession : n'.session conn = some session) :
    session.instanceID = (latest (greetingOf conn) log).join := by
  rcases hstep with rfl | ⟨e', hstep, hquiet⟩
  · exact h.inst conn session hsession
  · rcases session_of_step hstep hquiet hsession with ⟨hfree, hnone⟩ | ⟨old, hold, hsame⟩
    · rw [h.silent conn hfree, hnone]
      rfl
    · exact hsame.trans (h.inst conn old hold)

/-- A session that there is not was not there before a step of the network. -/
theorem free_before {n n' : Network} {e : NetworkEvent} {conn : ConnID} (h : n.Step e n')
    (hfree : n'.session conn = none) : n.session conn = none := by
  cases hsession : n.session conn with
  | none => rfl
  | some session =>
      obtain ⟨session', hsession', -⟩ := h.session_after hsession
      rw [hfree] at hsession'
      cases hsession'

/-- The log of a step without a hello. -/
theorem Laned.market (h : Laned log s) {e : MarketEvent} {market : Market}
    (hstep : s.market.Step P cfg e market)
    (hquiet : ∀ conn id publicID payload, e ≠ .hello conn id publicID payload)
    {task : ConnID → Option Task} {errors : List (ConnID × String)} :
    Laned log { market, task, errors } where
  linked := h.linked.step hstep
  inst := fun conn session hsession => h.quiet (quiet_of_step hstep (hquiet conn)) hsession
  silent := by
    intro conn hfree
    rcases quiet_of_step hstep (hquiet conn) with hsame | ⟨e', hnetwork, -⟩
    · have hbefore : market.api.network.session conn = none := hfree
      rw [hsame] at hbefore
      exact h.silent conn hbefore
    · exact h.silent conn (free_before hnetwork hfree)

/-- The log of a hello of a session, whatever its statement has led to. -/
theorem Laned.hello (h : Laned log s) {conn : ConnID} {instanceID : Option UUID}
    {market : Market} (hlinked : Linked (registry market.db) market.api.network)
    (hnext : s.market.api.network.next (.hello conn instanceID) = some market.api.network)
    {task : ConnID → Option Task} {errors : List (ConnID × String)} :
    Laned (log ++ [(conn, instanceID)]) { market, task, errors } where
  linked := hlinked
  inst := by
    intro other session hsession
    by_cases hsame : conn = other
    · subst hsame
      have hgreeted := session_of_hello hnext
      have hsession' : market.api.network.session conn = some session := hsession
      rw [hsession', Option.bind_some] at hgreeted
      rw [latest_append_of_some (b := instanceID) (by simp [latest, greetingOf]), hgreeted]
      rfl
    · rw [latest_append_of_silent (by simp [greetingOf, hsame])]
      refine h.quiet (.inr ⟨_, Network.step_of_next hnext, ?_⟩) hsession
      rintro _ ⟨⟩
      exact hsame rfl
  silent := by
    intro other hfree
    have hbefore := free_before (Network.step_of_next hnext) hfree
    have hne : conn ≠ other := by
      rintro rfl
      obtain ⟨session, hsession, -⟩ := Option.bind_eq_some_iff.mp hnext
      rw [hbefore] at hsession
      cases hsession
    rw [latest_append_of_silent (by simp [greetingOf, hne])]
    exact h.silent other hbefore

/-- Every step keeps the invariant. -/
theorem Laned.step (h : Laned log s) (hstep : s.Step P cfg D e s') :
    Laned (log ++ greetings s e s') s' := by
  -- What is not the statement of a hello is not in the log.
  have hsilent : ∀ {log' : List (ConnID × Option UUID)}, log' = [] → Laned log s' →
      Laned (log ++ log') s' := by
    rintro _ rfl hlaned
    rwa [List.append_nil]
  cases hstep with
  | market hframed hmarket =>
      refine hsilent rfl (h.market hmarket ?_)
      rintro conn id publicID payload rfl
      cases hframed
  | refuse | ignore | start _ => exact hsilent rfl ⟨h.linked, h.inst, h.silent⟩
  | complete _ hmarket =>
      exact hsilent rfl (h.market hmarket fun _ _ _ _ heq => MarketEvent.noConfusion heq)
  | @hello conn env session payload market errors hsession htask hnext =>
      have hlog : greetings s (.run conn env) { (s.on market).setTask conn none with errors } =
          [(conn, upserted s env session payload)] := by
        simp only [greetings, htask, hsession]
      rw [hlog]
      refine h.hello (h.linked.step (Market.step_of_next hnext)) ?_
      rcases next_of_hello hnext hsession with
        ⟨row, hupsert, hnetwork⟩ | ⟨err, hupsert, -, hnetwork⟩
      · have hrow : upserted s env session payload = some row.id := by
          unfold upserted
          rw [Loops.db, hupsert]
        rw [hrow]
        exact hnetwork
      · have hnone : upserted s env session payload = none := by
          unfold upserted
          rw [Loops.db, hupsert]
        rw [hnone]
        exact hnetwork
  | @statement conn env session task instanceID f db hsession htask _ hframe _ hmarket =>
      refine hsilent ?_ (h.market hmarket fun _ _ _ _ heq => MarketEvent.noConfusion heq)
      simp only [greetings, htask, hsession]
      cases task with
      | hello => cases hframe
      | _ => rfl
  | @refuseStatement conn env task f error htask hframe =>
      refine hsilent ?_ ⟨h.linked, h.inst, h.silent⟩
      simp only [greetings, htask]
      cases task with
      | hello => cases hframe
      | _ => rfl
  | @failHello conn payload network error htask hnext =>
      have hlog : ∀ s', greetings s (.fail conn) s' = [(conn, none)] := by
        intro s'
        simp only [greetings, htask]
      let market := s.market.serving (s.market.api.connected network)
      have hlinked : Linked (registry market.db) market.api.network := by
        refine h.linked.network (Network.step_of_next hnext) ?_ ?_
        · exact fun _ _ _ heq => NetworkEvent.noConfusion heq
        · rintro _ _ _ ⟨⟩
      rw [hlog]
      exact h.hello hlinked hnext
  | @fail conn task error htask hother =>
      refine hsilent ?_ ⟨h.linked, h.inst, h.silent⟩
      simp only [greetings, htask]
      cases task with
      | hello payload => exact absurd rfl (hother payload)
      | _ => rfl

/-- The invariant holds throughout every run. -/
theorem laned_of_reaches (hreach : (laneMachine P cfg D).Reaches Machine.anyStep es (s, log)) :
    Laned log s := by
  refine hreach.invariant (fun s => Laned s.2 s.1) ?_ ?_
  · rintro ⟨s, log⟩ ⟨⟨⟨⟨⟨models, modelVersions, -, hdb⟩, -⟩, hnetwork, -⟩, -⟩, rfl⟩
    have hdb' : s.db = _ := hdb
    refine ⟨?_, fun conn session hsession => ?_, fun conn _ => rfl⟩
    · rw [hdb', hnetwork]
      exact ⟨List.nodup_nil, List.nodup_nil, List.nodup_nil,
        fun _ _ h => absurd h (by simp [Network.start]),
        fun _ _ _ h => absurd h (by simp [Network.start])⟩
    · rw [Loops.session, hnetwork] at hsession
      cases hsession
  · intro s e s' hlaned hstep _
    obtain ⟨hnext, hlog⟩ := hstep
    rw [hlog]
    exact hlaned.step (Loops.step_of_next hnext)

/-! ## The contract -/

/-- The session whose loop an event is a step of. -/
def LoopEvent.conn : LoopEvent → Option ConnID
  | .market _ => none
  | .read conn _ | .run conn _ | .fail conn => some conn

/-- In every run of the loops, a step of a session leaves the database as it is, or changes
the rows of one instance of its provider and nothing else: the instance that the statement
of its hello returns, or for any other frame the one that its latest hello has returned.
Without a hello, or after one that failed, no other frame changes anything; and a frame
that does not decode changes neither the market nor what a session has to do. -/
theorem session_stays_in_lane (P : Platform) (cfg : Config) (D : Decoder)
    (hreach : (laneMachine P cfg D).Reaches Machine.anyStep es (s, log)) :
    ∀ e s' conn session, s.next P cfg D e = some s' → LoopEvent.conn e = some conn →
      s.session conn = some session →
      (s'.db = s.db ∨
        (∃ payload instanceID, s.task conn = some (.hello payload) ∧
          greetings s e s' = [(conn, some instanceID)] ∧
          InLane session.providerID instanceID s.db s'.db) ∨
        ∃ instanceID, latest (greetingOf conn) log = some (some instanceID) ∧
          (∀ payload, s.task conn ≠ some (.hello payload)) ∧
          InLane session.providerID instanceID s.db s'.db) ∧
      ∀ data, e = .read conn data → s'.db = s.db ∧
        (D.decodes data = false → s'.market = s.market ∧ s'.task = s.task) := by
  have hlaned := laned_of_reaches hreach
  intro e s' conn session hnext hconn hsession
  have hstarted : ∀ {greeted data received}, D.decodes data = false →
      receive D greeted data = received → (∃ error, received = .refuse error) ∨
        received = .ignore := by
    rintro greeted data _ hdecodes rfl
    exact receive_of_not_decodes hdecodes greeted
  cases Loops.step_of_next hnext with
  | market => cases hconn
  | refuse | ignore => exact ⟨.inl rfl, fun _ _ => ⟨rfl, fun _ => ⟨rfl, rfl⟩⟩⟩
  | start hreceive =>
      refine ⟨.inl rfl, ?_⟩
      rintro data ⟨⟩
      refine ⟨rfl, fun hdecodes => ?_⟩
      rcases hstarted hdecodes hreceive with ⟨error, heq⟩ | heq <;> cases heq
  | @complete _ _ _ _ market hreceive hmarket =>
      have hdb : (s.on market).db = s.db := by
        cases hmarket with
        | api _ hapi =>
            cases hapi
            rfl
      refine ⟨.inl hdb, ?_⟩
      rintro data ⟨⟩
      refine ⟨hdb, fun hdecodes => ?_⟩
      rcases hstarted hdecodes hreceive with ⟨error, heq⟩ | heq <;> cases heq
  | @hello _ env own payload market errors hown htask hmarket =>
      cases hconn
      obtain rfl := Option.some.inj (hown.symm.trans hsession)
      refine ⟨?_, fun _ heq => LoopEvent.noConfusion heq⟩
      rcases next_of_hello hmarket hsession with ⟨row, hupsert, -⟩ | ⟨err, -, hdb, -⟩
      · refine .inr (.inl ⟨payload, row.id, htask, ?_,
          inLane_upsertInstance hlaned.linked.instanceIDs hupsert⟩)
        simp only [greetings, htask, hsession, upserted, Loops.db, hupsert]
      · exact .inl hdb
  | @statement _ env own task instanceID f db hown htask hinstance hframe hrun hmarket =>
      cases hconn
      obtain rfl := Option.some.inj (hown.symm.trans hsession)
      refine ⟨.inr (.inr ⟨instanceID, ?_, ?_, inLane_frame ?_ hrun⟩),
        fun _ heq => LoopEvent.noConfusion heq⟩
      · have hlatest := hlaned.inst conn own hsession
        rw [hinstance] at hlatest
        exact Option.join_eq_some_iff.mp hlatest.symm
      · rintro payload hhello
        rw [htask] at hhello
        cases hhello
        cases hframe
      · obtain ⟨inst, hinst, hid, howner⟩ :=
          hlaned.linked.inst conn own instanceID hsession hinstance
        intro other hother hsame
        obtain rfl : other = inst :=
          List.inj_on_of_nodup_map hlaned.linked.instanceIDs hother hinst (hsame.trans hid.symm)
        exact howner
  | refuseStatement | failHello | fail => exact ⟨.inl rfl, fun _ heq => LoopEvent.noConfusion heq⟩

end Runs

/-! ## A sample run -/

/-- The bytes of an ASCII text. -/
def asciiBytes (text : String) : List UInt8 := text.toList.map fun c => UInt8.ofNat c.toNat

def helloText : String := "\x7b\"instance_key\":\"key-a\"\x7d"

def heartbeatText : String := "\x7b\"status\":\"busy\"\x7d"

/-- An envelope of a type around a payload. -/
def envelopeText (type payload : String) : String :=
  "\x7b\"type\":\"" ++ type ++ "\",\"payload\":" ++ payload ++ "\x7d"

/-- The decoder on the frames of the sample session. -/
def sampleDecoder : Decoder where
  envelope := fun data =>
    if data = asciiBytes (envelopeText "provider.hello" helloText) then
      some ⟨"provider.hello", asciiBytes helloText⟩
    else if data = asciiBytes (envelopeText "provider.heartbeat" heartbeatText) then
      some ⟨"provider.heartbeat", asciiBytes heartbeatText⟩
    else none
  hello := fun data => if data = asciiBytes helloText then some ⟨"key-a", "", "", "", ""⟩ else none
  heartbeat := fun data =>
    if data = asciiBytes heartbeatText then some ⟨"busy", none, 0, none, none, none⟩ else none
  hardwareReport := fun _ => none
  modelList := fun _ => none
  jobResult := fun _ => none
  jobError := fun _ => none

/-- What the statements of the sample session take from outside. -/
def sampleTaskEnv : TaskEnv := ⟨24, "pin_b", [], none, ("", "")⟩

/-- A session of the sample provider says hello, sends bytes that do not decode, and then
a heartbeat whose statement has not run yet. -/
def sessionEvents : List LoopEvent :=
  (openingEvents.take 5).map .market ++
  [.read 0 (asciiBytes (envelopeText "provider.hello" helloText)), .run 0 sampleTaskEnv,
    .read 0 (asciiBytes "hello"),
    .read 0 (asciiBytes (envelopeText "provider.heartbeat" heartbeatText))]

/-- The loops of the sample market before anything was read. -/
def freshLoops : Loops where
  market := freshMarket
  task := fun _ => none
  errors := []

/-- The heartbeat of the sample session changes the instance that its hello has upserted. -/
theorem sample_heartbeat_stays_in_lane :
    ∃ s log s', (laneMachine samplePlatform sampleConfig sampleDecoder).Reaches Machine.anyStep
        sessionEvents (s, log) ∧
      s.next samplePlatform sampleConfig sampleDecoder (.run 0 sampleTaskEnv) = some s' ∧
      s'.db ≠ s.db ∧
      ∃ instanceID, latest (greetingOf 0) log = some (some instanceID) ∧
        InLane 5 instanceID s.db s'.db := by
  let run := Machine.exec (Loops.next samplePlatform sampleConfig sampleDecoder)
    (fun _ _ _ => true) freshLoops
  let s := (run sessionEvents).getD freshLoops
  let s' := (s.next samplePlatform sampleConfig sampleDecoder (.run 0 sampleTaskEnv)).getD s
  obtain ⟨hrun, hnext, hchanged, htask, hsession⟩ : (run sessionEvents).isSome ∧
      (s.next samplePlatform sampleConfig sampleDecoder (.run 0 sampleTaskEnv)).isSome ∧
      s'.db ≠ s.db ∧ s.task 0 = some (.heartbeat "busy" none) ∧
      (s.session 0).map Session.providerID = some 5 := by
    decide +kernel
  have hreach : (loopMachine samplePlatform sampleConfig sampleDecoder).Reaches Machine.anyStep
      sessionEvents s :=
    Machine.reaches_of_exec (fun _ _ _ _ => trivial) ⟨start_freshMarket, rfl⟩ hrun
  obtain ⟨log, hrecorded⟩ := hreach.record greetings
  have hlogged : (laneMachine samplePlatform sampleConfig sampleDecoder).Reaches Machine.anyStep
      sessionEvents (s, log) := hrecorded.mono fun _ _ _ _ => trivial
  have hstep :
      s.next samplePlatform sampleConfig sampleDecoder (.run 0 sampleTaskEnv) = some s' := by
    obtain ⟨found, hfound⟩ := Option.isSome_iff_exists.mp hnext
    simp only [s', hfound, Option.getD_some]
  obtain ⟨session, hfound, hprovider⟩ := Option.map_eq_some_iff.mp hsession
  obtain ⟨hlane, -⟩ := session_stays_in_lane samplePlatform sampleConfig sampleDecoder hlogged
    (.run 0 sampleTaskEnv) s' 0 session hstep rfl hfound
  rw [hprovider] at hlane
  rcases hlane with hsame | ⟨payload, instanceID, hhello, -⟩ | ⟨instanceID, hlatest, -, hin⟩
  · exact absurd hsame hchanged
  · rw [htask] at hhello
    cases hhello
  · exact ⟨s, log, s', hlogged, hstep, hchanged, instanceID, hlatest, hin⟩

end Nuvonode.Contract
