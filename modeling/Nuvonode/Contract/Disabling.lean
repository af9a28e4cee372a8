/-
  Contract/Disabling.lean --- what stays of a provider that is disabled.

  `DisableProvider` updates the rows and then closes the one connection that the hub
  knows.  That is final where this connection is the only one of the provider that is
  open, and where none of its sessions says hello or sends a heartbeat after the update:
  no statement on instances looks at the status of the provider, and a session that the
  hub does not know goes on.  Whether a connection is open, and what `Close` and a write do
  to it, is up to the websocket package.
-/
import Nuvonode.Contract.Spending
import Nuvonode.Ws.Sockets

set_option autoImplicit false

namespace Nuvonode.Contract

open Nuvonode.Foundation Nuvonode.Database Nuvonode.Repository Nuvonode.Service Nuvonode.Handler
  Nuvonode.Ws

/-! ## The condition -/

/-- Whether the statement that disables a provider has run in this market. -/
def Struck (m : Market) (p : String) : Prop := p ∈ m.disabling ∨ p ∈ m.disabled

theorem not_struck {m : Market} (hdisabling : m.disabling = []) (hdisabled : m.disabled = [])
    (p : String) : ¬ Struck m p := by
  intro hstruck
  rcases hstruck with hmem | hmem
  · rw [hdisabling] at hmem
    cases hmem
  · rw [hdisabled] at hmem
    cases hmem

/-- Whether an event is a hello or a heartbeat of a session of a provider that succeeds. -/
def ReportsFor (m : Market) (p : String) : MarketEvent → Prop
  | .hello conn id publicID payload => ∃ session, m.api.network.session conn = some session ∧
      session.providerPublicID = p ∧
        ∃ r, upsertInstance m.clock id session.providerID publicID payload m.db = .ok r
  | .frame conn (.heartbeat status currentJobID) => ∃ session instanceID,
      m.api.network.session conn = some session ∧ session.providerPublicID = p ∧
        session.instanceID = some instanceID ∧
          ∃ db, providerHeartbeat m.clock instanceID status currentJobID m.db = .ok db
  | _ => False

/-- The open connections of a provider are those that the hub knows. -/
def KnownToHub {S : Sockets} (a : S.Plugged Market) (p : String) : Prop :=
  ∀ conn session, a.system.api.network.session conn = some session →
    session.providerPublicID = p → S.Connected (a.conns conn) →
      ∃ entry ∈ a.system.api.network.hub.providers p, entry.conn = conn

/-- No session of a provider reports after its statement, and when the hub is asked to
disconnect it, the hub knows its connections. -/
def Undisturbed {S : Sockets} (a : S.Plugged Market) (e : MarketEvent) (_ : S.Plugged Market) :
    Prop :=
  (∀ p, Struck a.system p → ¬ ReportsFor a.system p e) ∧ ∀ p, e = .disconnect p → KnownToHub a p

/-! ## What a step does to a provider that is disabled -/

section Steps

variable {P : Platform} {cfg : Config} {m m' : Market} {e : MarketEvent}

/-- A report is that of a session that has the instance afterwards. -/
theorem reports_of_shows (h : m.Step P cfg e m') {instanceID : UUID} {status : InstanceStatus}
    (hfact : .reported instanceID status ∈ m.shows P cfg e m') :
    ∃ conn session, m'.api.network.session conn = some session ∧
      session.instanceID = some instanceID ∧ ReportsFor m session.providerPublicID e := by
  rcases reported_of_shows hfact with ⟨conn, id, publicID, payload, rfl, -, hgreeted⟩ |
    ⟨conn, session, text, job, db, rfl, hsession, hinstance, -, hrun⟩
  · obtain ⟨session, hsession, hinstance⟩ := Option.bind_eq_some_iff.mp hgreeted
    refine ⟨conn, session, hsession, hinstance, ?_⟩
    cases h with
    | hello hstep =>
        cases hstep with
        | refuseHello hnext =>
            cases hgreeted.symm.trans (session_of_hello hnext)
        | @hello _ _ _ _ _ old row catalog network hold hupsert _ hnext =>
            have hstep := Network.step_of_next hnext
            obtain ⟨new, hnew, hsame, -⟩ := hstep.session_after hold
            obtain rfl := Option.some.inj (hnew.symm.trans hsession)
            exact ⟨old, hold, hsame.symm, _, hupsert⟩
  · cases h with
    | frame => exact ⟨conn, session, hsession, hinstance, session, instanceID, hsession, rfl,
        hinstance, db, hrun⟩
    | ignore => exact ⟨conn, session, hsession, hinstance, session, instanceID, hsession, rfl,
        hinstance, db, hrun⟩

/-- A provider is disabled by the statement of its request. -/
theorem struck_before (h : m.Step P cfg e m') {p : String} (hstruck : Struck m' p) :
    Struck m p ∨ ∃ userPublicID row, e = .request userPublicID (.disableProvider p) ∧
      Table.select ProviderRow.publicID m.db.providers p = some row ∧
      (registry m.db).Change m.clock [.disabled row.id] (registry m'.db) := by
  cases h with
  | @request userPublicID user r db huser hrun =>
      cases r with
      | disableProvider q =>
          obtain ⟨-, hdisable⟩ := eq_ok_of_adminOnly hrun
          rcases hstruck with hmem | hmem
          · rcases List.mem_cons.mp hmem with rfl | hmem
            · obtain ⟨row, hselect, hregisters⟩ := registers_disableProvider hdisable
              exact .inr ⟨userPublicID, row, rfl, hselect, hregisters.change⟩
            · exact .inl (.inl hmem)
          · exact .inl (.inr hmem)
      | _ => exact .inl hstruck
  | @disconnect q network hdisabling _ =>
      rcases hstruck with hmem | hmem
      · exact .inl (.inl (List.mem_of_mem_erase hmem))
      · rcases List.mem_cons.mp hmem with rfl | hmem
        · exact .inl (.inl hdisabling)
        · exact .inl (.inr hmem)
  | _ => exact .inl hstruck

end Steps

/-! ## The invariant -/

/-- What holds of the rows of a provider once it is disabled. -/
structure Final (m : Market) : Prop where
  linked : Linked (registry m.db) m.api.network
  row : ∀ p, Struck m p → ∃ provider ∈ m.db.providers,
    provider.publicID = p ∧ provider.status = .disabled
  offline : ∀ p, Struck m p → ∀ provider ∈ m.db.providers, provider.publicID = p →
    ∀ inst ∈ m.db.catalog.instances, inst.providerID = provider.id → inst.status = .offline

/-- No connection of a provider is open once its request has returned. -/
def Gone {S : Sockets} (a : S.Plugged Market) : Prop :=
  ∀ p ∈ a.system.disabled, ∀ conn session, a.system.api.network.session conn = some session →
    session.providerPublicID = p → ¬ S.Connected (a.conns conn)

section Final

variable {P : Platform} {cfg : Config} {m m' : Market} {e : MarketEvent}

/-- What the statement that disables a provider leaves. -/
theorem disabled_change {now : Nat} {r r' : Registry} {id : UUID}
    (h : r.Change now [.disabled id] r') :
    (∀ provider ∈ r'.providers, provider.id = id → provider.status = .disabled) ∧
      ∀ inst ∈ r'.catalog.instances, inst.providerID = id → inst.status = .offline := by
  cases h with
  | disable _ =>
      refine ⟨fun provider hprovider hid => ?_, fun inst hinst hid => ?_⟩
      · obtain ⟨old, -, rfl⟩ := Table.mem_update.mp hprovider
        split at hid
        · rename_i hold
          rw [if_pos hold]
          rfl
        · exact absurd hid ‹_›
      · obtain ⟨old, -, rfl⟩ := Table.mem_update.mp hinst
        split at hid
        · rename_i hold
          rw [if_pos hold]
          rfl
        · exact absurd hid ‹_›

/-- A session that reports an instance of a provider is a session of this provider. -/
theorem owner_of_report (hlinked : Linked (registry m'.db) m'.api.network) {conn : ConnID}
    {session : Session} {inst : InstanceRow} {provider : ProviderRow}
    (hsession : m'.api.network.session conn = some session)
    (hinstance : session.instanceID = some inst.id) (hinst : inst ∈ m'.db.catalog.instances)
    (hprovider : provider ∈ m'.db.providers) (howner : inst.providerID = provider.id) :
    session.providerPublicID = provider.publicID := by
  obtain ⟨own, hown, hownID, hownProvider⟩ := hlinked.inst conn session inst.id hsession hinstance
  have hsame : own = inst := List.inj_on_of_nodup_map hlinked.instanceIDs hown hinst hownID
  subst hsame
  obtain ⟨row, hrow, hid, hpublicID⟩ := hlinked.provider conn session hsession
  have hrowID : row.id = provider.id := hid.trans (hownProvider.symm.trans howner)
  have hrowSame : row = provider :=
    List.inj_on_of_nodup_map hlinked.ids hrow hprovider hrowID
  rw [← hpublicID, hrowSame]

/-- A provider that is struck stays disabled, and without an instance that is not offline. -/
theorem Final.rows (h : Final m) (hstep : m.Step P cfg e m')
    (hguard : ∀ p, Struck m p → ¬ ReportsFor m p e) {p : String} (hstruck : Struck m p) :
    (∃ provider ∈ m'.db.providers, provider.publicID = p ∧ provider.status = .disabled) ∧
      ∀ provider ∈ m'.db.providers, provider.publicID = p →
        ∀ inst ∈ m'.db.catalog.instances, inst.providerID = provider.id →
          inst.status = .offline := by
  have hlinked := h.linked.step hstep
  have hchange := hstep.change
  obtain ⟨old, hold, hpublicID, hdisabled⟩ := h.row p hstruck
  obtain ⟨new, hnew, hnewID, hnewPublicID, hstays⟩ := hchange.provider_after hold
  refine ⟨⟨new, hnew, hnewPublicID.trans hpublicID, hstays hdisabled⟩, ?_⟩
  intro provider hprovider hp inst hinst howner
  obtain rfl : new = provider :=
    hlinked.same_provider hnew hprovider (hnewPublicID.trans (hpublicID.trans hp.symm))
  cases hchange.instance_origin hinst with
  | kept hkept _ => exact h.offline p hstruck old hold hpublicID inst hkept (howner.trans hnewID)
  | retired hoffline => exact hoffline
  | reported hfacts =>
      -- It would be a session of the provider that reports.
      have hfact : Fact.reported inst.id inst.status ∈ m.shows P cfg e m' :=
        hfacts ▸ List.mem_singleton_self _
      obtain ⟨conn, session, hsession, hinstance, hreports⟩ := reports_of_shows hstep hfact
      rw [owner_of_report hlinked hsession hinstance hinst hprovider howner, hp] at hreports
      exact absurd hreports (hguard p hstruck)

/-- Every step after which no session of a provider that is struck has reported keeps the
invariant. -/
theorem Final.step (h : Final m) (hstep : m.Step P cfg e m')
    (hguard : ∀ p, Struck m p → ¬ ReportsFor m p e) : Final m' := by
  have hrows : ∀ p, Struck m' p →
      (∃ provider ∈ m'.db.providers, provider.publicID = p ∧ provider.status = .disabled) ∧
        ∀ provider ∈ m'.db.providers, provider.publicID = p →
          ∀ inst ∈ m'.db.catalog.instances, inst.providerID = provider.id →
            inst.status = .offline := by
    intro p hstruck
    rcases struck_before hstep hstruck with hbefore | ⟨userPublicID, row, -, hselect, hchange⟩
    · exact h.rows hstep hguard hbefore
    · obtain ⟨hmem, hpublicID⟩ := Table.mem_of_select hselect
      obtain ⟨new, hnew, hnewID, hnewPublicID, -⟩ := hchange.provider_after hmem
      obtain ⟨hdisabled, hoffline⟩ := disabled_change hchange
      refine ⟨⟨new, hnew, hnewPublicID.trans hpublicID, hdisabled new hnew hnewID⟩, ?_⟩
      intro provider hprovider hp inst hinst howner
      obtain rfl : new = provider :=
        (h.linked.step hstep).same_provider hnew hprovider
          (hnewPublicID.trans (hpublicID.trans hp.symm))
      exact hoffline inst hinst (howner.trans hnewID)
  exact ⟨h.linked.step hstep, fun p hstruck => (hrows p hstruck).1,
    fun p hstruck => (hrows p hstruck).2⟩

/-! ### The connections -/

variable {S : Sockets} {a b : S.Plugged Market}

/-- A session of a provider that is disabled was there before. -/
theorem Final.session_before (h : Final m) (hstep : m.Step P cfg e m') {p : String}
    (hstruck : Struck m p) {conn : ConnID} {session : Session}
    (hsession : m'.api.network.session conn = some session)
    (hprovider : session.providerPublicID = p) :
    ∃ old, m.api.network.session conn = some old ∧ old.providerPublicID = p := by
  rcases hstep.network_part with hsame | ⟨e', hconnects⟩
  · exact ⟨session, hsame ▸ hsession, hprovider⟩
  · rcases hconnects.step.session_before hsession with ⟨haccept, -⟩ | ⟨old, hold, hkeeps, -⟩
    · -- A token of the provider is not resolved any more.
      obtain ⟨-, provider, hmem, hactive, -, hpublicID⟩ := hconnects.accept _ _ _ haccept
      obtain ⟨row, hrow, hrowID, hdisabled⟩ := h.row p hstruck
      obtain rfl := h.linked.same_provider hmem hrow
        (hpublicID.trans (hprovider.trans hrowID.symm))
      rw [hactive] at hdisabled
      cases hdisabled
    · exact ⟨old, hold, hkeeps.providerPublicID ▸ hprovider⟩

/-- A connection of a provider that is disabled and is open was open before. -/
theorem Final.connected_before (h : Final a.system) (hS : S.Lawful)
    (hstep : a.system.Step P cfg e b.system)
    (hbecomes : ∀ conn, S.Becomes conn (a.system.socketCall e) (a.conns conn) (b.conns conn))
    {p : String} (hstruck : Struck a.system p) {conn : ConnID} {session : Session}
    (hsession : b.system.api.network.session conn = some session)
    (hprovider : session.providerPublicID = p) (hconnected : S.Connected (b.conns conn)) :
    ∃ old, a.system.api.network.session conn = some old ∧ old.providerPublicID = p ∧
      S.Connected (a.conns conn) := by
  obtain ⟨old, hold, hsame⟩ := h.session_before hstep hstruck hsession hprovider
  rcases hS.connected_before (hbecomes conn) hconnected with hbefore | hupgrade
  · exact ⟨old, hold, hsame, hbefore⟩
  · have hnew := hstep.session_of_upgrade hupgrade
    rw [hold] at hnew
    cases hnew

/-- Every step that meets the condition leaves no connection of a provider that is disabled
open. -/
theorem Gone.step (h : Gone a) (hfinal : Final a.system) (hS : S.Lawful)
    (hstep : a.system.Step P cfg e b.system)
    (hbecomes : ∀ conn, S.Becomes conn (a.system.socketCall e) (a.conns conn) (b.conns conn))
    (hguard : Undisturbed a e b) : Gone b := by
  intro p hp conn session hsession hprovider hconnected
  have hbefore : p ∈ a.system.disabled ∨ e = .disconnect p ∧ p ∈ a.system.disabling := by
    generalize b.system = m' at hstep hp
    cases hstep with
    | @disconnect q network hdisabling _ =>
        rcases List.mem_cons.mp hp with rfl | hold
        · exact .inr ⟨rfl, hdisabling⟩
        · exact .inl hold
    | @request _ _ r _ _ _ => cases r <;> exact .inl hp
    | _ => exact .inl hp
  rcases hbefore with hold | ⟨rfl, hdisabling⟩
  · obtain ⟨old, hsession', hprovider', hopen⟩ := hfinal.connected_before hS hstep hbecomes
      (.inr hold) hsession hprovider hconnected
    exact h p hold conn old hsession' hprovider' hopen
  · -- The connection is the one that the hub knows, and `Close` takes it down.
    obtain ⟨old, hsession', hprovider', hopen⟩ := hfinal.connected_before hS hstep hbecomes
      (.inl hdisabling) hsession hprovider hconnected
    obtain ⟨entry, hentry, rfl⟩ := hguard.2 p rfl conn old hsession' hprovider' hopen
    have hclose : a.system.socketCall (.disconnect p) = some (.close entry.conn) :=
      Option.map_eq_some_iff.mpr ⟨entry, hentry, rfl⟩
    exact hS.down_of_close (hclose ▸ hbecomes entry.conn) hconnected

end Final

/-! ## The contract -/

/-- The market over any database with unique keys, when nobody is connected, with the
connections of a websocket package. -/
abbrev disablingMachine (P : Platform) (cfg : Config) (S : Sockets) :
    Machine (S.Plugged Market) MarketEvent :=
  S.plug (Machine.ofNext (fun m => m.api.network = .start ∧
    (m.disabling = [] ∧ m.disabled = []) ∧ Table.Unique ProviderRow.id m.db.providers ∧
      Table.Unique ProviderRow.publicID m.db.providers ∧
        Table.Unique InstanceRow.id m.db.catalog.instances) (Market.next P cfg)) Market.socketCall

section Contract

variable {P : Platform} {cfg : Config} {S : Sockets} {a : S.Plugged Market}
  {es : List MarketEvent}

theorem final_of_reaches (hS : S.Lawful)
    (h : (disablingMachine P cfg S).Reaches Undisturbed es a) : Final a.system ∧ Gone a := by
  refine h.invariant (fun a => Final a.system ∧ Gone a) ?_ ?_
  · intro a hstart
    obtain ⟨hnetwork, ⟨hdisabling, hdisabled⟩, hids, hpublicIDs, hinstanceIDs⟩ := hstart
    have hnot : ∀ p, ¬ Struck a.system p := not_struck hdisabling hdisabled
    refine ⟨⟨⟨hids, hpublicIDs, hinstanceIDs, ?_, ?_⟩, fun p hstruck => absurd hstruck (hnot p),
      fun p hstruck => absurd hstruck (hnot p)⟩, fun p hmem => absurd (.inr hmem) (hnot p)⟩
    · rw [hnetwork]
      exact fun _ _ => nofun
    · rw [hnetwork]
      exact fun _ _ _ => nofun
  · intro a e b hboth hnext hguard
    have hstep := Market.step_of_next hnext.1
    exact ⟨hboth.1.step hstep hguard.1, hboth.2.step hboth.1 hS hstep hnext.2 hguard⟩

/-- A request that has returned stays known. -/
theorem disabled_of_returned {guard : S.Plugged Market → MarketEvent → S.Plugged Market → Prop}
    (h : (disablingMachine P cfg S).Reaches guard es a) :
    ∀ p, .disconnect p ∈ es → p ∈ a.system.disabled := by
  refine h.invariant_trace (fun es a => ∀ p, .disconnect p ∈ es → p ∈ a.system.disabled) ?_ ?_
  · exact fun _ _ _ => nofun
  · intro es a e b hmem hnext _ p hp
    have hkeeps : p ∈ a.system.disabled ∨ e = .disconnect p := by
      rcases List.mem_append.mp hp with hp | hp
      · exact .inl (hmem p hp)
      · exact .inr (List.mem_singleton.mp hp).symm
    have hstep := Market.step_of_next hnext.1
    generalize b.system = m' at hstep
    cases hstep with
    | disconnect _ _ =>
        rcases hkeeps with hold | heq
        · exact List.mem_cons_of_mem _ hold
        · cases heq
          exact List.mem_cons_self
    | @request _ _ r _ _ _ =>
        have hold := hkeeps.resolve_right nofun
        cases r <;> exact hold
    | _ => exact hkeeps.resolve_right nofun

/-- In every run where no session of a provider says hello or sends a heartbeat with
success once its statement has run, and where the hub knows its open connections when it
is asked to disconnect it: after `DisableProvider` has returned, no connection of the
provider is open, all its instances are offline, and no request is written to a
connection of it. -/
theorem disabling_is_final (P : Platform) (cfg : Config) (hS : S.Lawful)
    (hreach : (disablingMachine P cfg S).Reaches Undisturbed es a) {p : String}
    (hreturned : .disconnect p ∈ es) :
    (∀ conn session, a.system.api.network.session conn = some session →
      session.providerPublicID = p → ¬ S.Connected (a.conns conn)) ∧
      (∀ provider ∈ a.system.db.providers, provider.publicID = p →
        ∀ inst ∈ a.system.db.catalog.instances, inst.providerID = provider.id →
          inst.status = .offline) ∧
      ∀ id dispatch conn session, a.system.api.network.dispatch id = some dispatch →
        dispatch.phase = .opened conn → a.system.api.network.session conn = some session →
        session.providerPublicID = p →
        ∀ b, ¬ (disablingMachine P cfg S).step a (.api (.network (.write id none))) b := by
  obtain ⟨hfinal, hgone⟩ := final_of_reaches hS hreach
  have hdisabled := disabled_of_returned hreach p hreturned
  refine ⟨hgone p hdisabled, hfinal.offline p (.inr hdisabled), ?_⟩
  rintro id dispatch conn session hdispatch hphase hsession hprovider b ⟨-, hbecomes⟩
  have hwrite : a.system.socketCall (.api (.network (.write id none))) =
      some (.writeJSON conn none) := Network.socketCall_write hdispatch hphase
  exact hgone p hdisabled conn session hsession hprovider
    (hS.up_of_written (hwrite ▸ hbecomes conn))

/-- A session was accepted in the run. -/
theorem accepted_of_session {guard : S.Plugged Market → MarketEvent → S.Plugged Market → Prop}
    (h : (disablingMachine P cfg S).Reaches guard es a) :
    ∀ conn session, a.system.api.network.session conn = some session →
      ∃ token, .api (.connect conn token) ∈ es := by
  refine h.invariant_trace (fun es a => ∀ conn session,
    a.system.api.network.session conn = some session →
      ∃ token, .api (.connect conn token) ∈ es) ?_ ?_
  · intro a hstart
    have hnetwork : a.system.api.network = .start := hstart.1
    rw [hnetwork]
    exact fun _ _ => nofun
  · intro es a e b haccepted hnext _ conn session hsession
    have hbefore : (∃ old, a.system.api.network.session conn = some old) ∨
        ∃ token, e = .api (.connect conn token) := by
      rcases (Market.step_of_next hnext.1).network_part with hsame | ⟨e', hconnects⟩
      · exact .inl ⟨session, hsame ▸ hsession⟩
      · rcases hconnects.step.session_before hsession with ⟨haccept, -⟩ | ⟨old, hold, -⟩
        · exact .inr (hconnects.accept _ _ _ haccept).1
        · exact .inl ⟨old, hold⟩
    rcases hbefore with ⟨old, hold⟩ | ⟨token, rfl⟩
    · obtain ⟨token, hmem⟩ := haccepted conn old hold
      exact ⟨token, List.mem_append_left _ hmem⟩
    · exact ⟨token, List.mem_append_right _ (List.mem_singleton_self _)⟩

end Contract

/-! ## Sample runs -/

/-- The sample market before anybody is connected. -/
def freshPlugged : sampleSockets.Plugged Market := { system := freshMarket, conns := fun _ => true }

theorem start_freshPlugged :
    (disablingMachine samplePlatform sampleConfig sampleSockets).start freshPlugged :=
  ⟨rfl, ⟨rfl, rfl⟩, List.nodup_nil, List.nodup_nil, List.nodup_nil⟩

/-- The sample market with its connections. -/
def nextSample : sampleSockets.Plugged Market → MarketEvent →
    Option (sampleSockets.Plugged Market) :=
  nextPlugged (Market.next samplePlatform sampleConfig) Market.socketCall

/-- A check of runs in which no provider is disabled yet. -/
def undisabled (a : sampleSockets.Plugged Market) (e : MarketEvent)
    (_ : sampleSockets.Plugged Market) : Bool :=
  decide (a.system.disabling = [] ∧ a.system.disabled = []) && match e with
    | .disconnect _ => false
    | _ => true

theorem undisturbed_of_undisabled {a b : sampleSockets.Plugged Market} {e : MarketEvent}
    (h : undisabled a e b = true) : Undisturbed a e b := by
  obtain ⟨hnone, hother⟩ := Bool.and_eq_true_iff.mp h
  obtain ⟨hdisabling, hdisabled⟩ := of_decide_eq_true hnone
  refine ⟨fun p hstruck => absurd hstruck (not_struck hdisabling hdisabled p), fun p hevent => ?_⟩
  rw [hevent] at hother
  cases hother

/-- A request waits to be written to the machine of the sample provider, and the statement on
the provider has run. -/
def struckEvents : List MarketEvent :=
  openingEvents ++ requestEvents none ++ [.request "usr_a" (.disableProvider "prv_b")]

/-- The sample market after these events. -/
def struckPlugged : sampleSockets.Plugged Market :=
  (Machine.exec nextSample undisabled freshPlugged struckEvents).getD freshPlugged

/-- The sample provider has one session, and is disabled: the request that waits is not written
any more. -/
theorem sample_disabling_is_final :
    ∃ a, (disablingMachine samplePlatform sampleConfig sampleSockets).Reaches Undisturbed
        (struckEvents ++ [.disconnect "prv_b"]) a ∧
      (∀ conn session, a.system.api.network.session conn = some session →
        session.providerPublicID = "prv_b" → ¬ sampleSockets.Connected (a.conns conn)) ∧
      (∀ provider ∈ a.system.db.providers, provider.publicID = "prv_b" →
        ∀ inst ∈ a.system.db.catalog.instances, inst.providerID = provider.id →
          inst.status = .offline) ∧
      ∀ b, ¬ (disablingMachine samplePlatform sampleConfig sampleSockets).step a
        (.api (.network (.write 0 none))) b := by
  obtain ⟨hrun, hentry, hnext⟩ :
      (Machine.exec nextSample undisabled freshPlugged struckEvents).isSome ∧
        struckPlugged.system.api.network.hub.providers "prv_b" = some ⟨"prv_b", 0⟩ ∧
        ∃ a ∈ nextSample struckPlugged (.disconnect "prv_b"),
          (a.system.api.network.dispatch 0).map Dispatch.phase = some (.opened 0) ∧
            (a.system.api.network.session 0).map Session.providerPublicID = some "prv_b" := by
    decide +kernel
  obtain ⟨a, ha, hwaits, hheld⟩ := hnext
  have hreach : (disablingMachine samplePlatform sampleConfig sampleSockets).Reaches Undisturbed
      struckEvents struckPlugged :=
    ⟨freshPlugged, start_freshPlugged,
      steps_of_plugged (fun _ _ _ => undisturbed_of_undisabled) hrun⟩
  have hguard : Undisturbed struckPlugged (.disconnect "prv_b") a := by
    refine ⟨fun _ _ hreports => hreports, ?_⟩
    rintro p ⟨⟩ conn session hsession - -
    obtain ⟨token, hmem⟩ := accepted_of_session hreach conn session hsession
    simp [struckEvents, openingEvents, requestEvents] at hmem
    exact ⟨_, hentry, hmem.1.symm⟩
  have hdisabled := hreach.snoc (step_of_nextPlugged ha) hguard
  have hreturned : MarketEvent.disconnect "prv_b" ∈ struckEvents ++ [.disconnect "prv_b"] :=
    List.mem_append_right _ (List.mem_singleton_self _)
  obtain ⟨hgone, hoffline, hunwritten⟩ := disabling_is_final samplePlatform sampleConfig
    lawful_sampleSockets hdisabled hreturned
  obtain ⟨dispatch, hdispatch, hphase⟩ := Option.map_eq_some_iff.mp hwaits
  obtain ⟨session, hsession, hprovider⟩ := Option.map_eq_some_iff.mp hheld
  exact ⟨a, hdisabled, hgone, hoffline,
    hunwritten 0 dispatch 0 session hdispatch hphase hsession hprovider⟩

/-- A request waits to be written to the machine of the sample provider, when another
machine connects with the same token. -/
def twoSessionEvents : List MarketEvent :=
  openingEvents ++ requestEvents none ++
    [.api (.connect 1 "pvn_provider_b"), .api (.network (.register 1))]

/-- The provider is disabled, and its first machine sends a heartbeat. -/
def disableEvents : List MarketEvent :=
  [.request "usr_a" (.disableProvider "prv_b"), .disconnect "prv_b",
    .frame 0 (.heartbeat "online" none)]

/-- The sample market after some events, from a given state of it. -/
def pluggedAfter (a : sampleSockets.Plugged Market) (es : List MarketEvent) :
    sampleSockets.Plugged Market :=
  (Machine.exec nextSample (fun _ _ _ => true) a es).getD a

/-- Whether the first session is one of the sample provider, and its connection is open. -/
def firstConnected (a : sampleSockets.Plugged Market) : Prop :=
  (a.system.api.network.session 0).map Session.providerPublicID = some "prv_b" ∧
    sampleSockets.Connected (a.conns 0)

instance (a : sampleSockets.Plugged Market) : Decidable (firstConnected a) :=
  inferInstanceAs (Decidable (_ ∧ a.conns 0 = true))

/-- After `DisableProvider` has returned the first session is still connected, its instance
is online again, and the request can be written to it. -/
theorem disabled_provider_goes_on :
    ∃ a b, (disablingMachine samplePlatform sampleConfig sampleSockets).Reaches Machine.anyStep
        twoSessionEvents a ∧
      (disablingMachine samplePlatform sampleConfig sampleSockets).Steps Machine.anyStep a
        disableEvents b ∧
      firstConnected a ∧ .disconnect "prv_b" ∈ disableEvents ∧ firstConnected b ∧
      (∃ inst ∈ b.system.db.catalog.instances, inst.providerID = 5 ∧ inst.status = .online) ∧
      ∃ c, (disablingMachine samplePlatform sampleConfig sampleSockets).step b
        (.api (.network (.write 0 none))) c := by
  let before := pluggedAfter freshPlugged twoSessionEvents
  let after := pluggedAfter before disableEvents
  obtain ⟨hrun, hrest, hconnected, hmem, hstill, honline, hwrite⟩ :
      (Machine.exec nextSample (fun _ _ _ => true) freshPlugged twoSessionEvents).isSome ∧
        (Machine.exec nextSample (fun _ _ _ => true) before disableEvents).isSome ∧
        firstConnected before ∧ .disconnect "prv_b" ∈ disableEvents ∧ firstConnected after ∧
        (∃ inst ∈ after.system.db.catalog.instances,
          inst.providerID = 5 ∧ inst.status = .online) ∧
        (nextSample after (.api (.network (.write 0 none)))).isSome := by
    decide +kernel
  obtain ⟨c, hc⟩ := Option.isSome_iff_exists.mp hwrite
  exact ⟨before, after,
    ⟨freshPlugged, start_freshPlugged, steps_of_plugged (fun _ _ _ _ => trivial) hrun⟩,
    steps_of_plugged (fun _ _ _ _ => trivial) hrest, hconnected, hmem, hstill, honline, c,
    step_of_nextPlugged hc⟩

end Nuvonode.Contract
