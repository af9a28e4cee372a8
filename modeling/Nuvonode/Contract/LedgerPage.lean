/-
  Contract/LedgerPage.lean --- whether the ledger of a wallet is shown as its history.

  An entry joins the ledger when its transaction commits, in the order in which the
  transactions held the lock of the wallet.  The page orders the entries by
  `created_at`, which is the time at which a transaction began.
-/
import Nuvonode.Contract.Ledger
import Nuvonode.Foundation.Journal
import Nuvonode.Service.Dashboard

set_option autoImplicit false

namespace Nuvonode.Contract

open Nuvonode.Foundation Nuvonode.Database Nuvonode.Repository Nuvonode.Service

/-! ## Ledger entries with their times -/

/-- `wallet_ledger`, whose `public_id` is unique and whose `created_at` defaults to `now()`. -/
def ledgerJournal : Journal store LedgerRow String ListedEntry where
  rows := DB.walletLedger
  added
    | .insertLedger row => [row]
    | _ => []
  rows_apply := by
    intro db w
    cases w with
    | insertLedger row => rfl
    | _ => exact (List.append_nil _).symm
  row := ListedEntry.toLedgerRow
  name entry := entry.publicID
  createdAt := ListedEntry.createdAt

/-- The database server with its clock. -/
abbrev ClockedServer : Type := Clocked store Err Operation Unit ListedEntry

/-- The service's database server with its clock, from a fresh database. -/
abbrev ledgerMachine (P : Platform) (cfg : Config) :
    Machine ClockedServer (ServerEvent Operation × Nat) :=
  Clocked.machine ledgerJournal (program P cfg) Fresh

/-- The guard of a run: an entry is its transaction's only one on the wallet, and the transaction
began later than all that have entries on it. -/
def EntriesInTurn : ClockedServer → ServerEvent Operation × Nat → ClockedServer → Prop :=
  Clocked.InTurn ledgerJournal LedgerRow.walletID

/-- The database as the dashboard finds it. -/
structure Shows (m : ClockedServer) (s : Records) : Prop where
  db : s.db = m.server.committed
  walletLedger : s.walletLedger = m.entries

/-! ## A page that is a history -/

/-- The entries of a wallet in the order of the table. -/
def walletEntries (walletID : UUID) (s : Records) : List ListedEntry :=
  s.walletLedger.filter fun entry => entry.walletID = walletID

/-- What is shown of them, the entry that was committed last first. -/
def newestEntries (walletID : UUID) (s : Records) : List LedgerEntry :=
  (walletEntries walletID s).reverse.map ledgerColumns

/-- An entry that was made on what an older one left. -/
structure FollowsOn (newer older : LedgerEntry) : Prop where
  balance : newer.balanceAfter.toInt = older.balanceAfter.toInt + newer.amountCredits.toInt
  reserved : newer.reservedAfter.toInt = older.reservedAfter.toInt + newer.reservedDelta.toInt

/-- A page that is a consistent history of a wallet.  The last entry that is listed follows on
the first that is not. -/
structure ConsistentPage (walletID : UUID) (s : Records) (page : List LedgerEntry) : Prop where
  order : page = (newestEntries walletID s).take 100
  current : ∀ entry ∈ page.head?,
    ∀ wallet ∈ Table.select WalletRow.id s.wallets walletID,
      entry.balanceAfter = wallet.balanceCredits ∧ entry.reservedAfter = wallet.reservedCredits
  chain : (page ++ ((newestEntries walletID s).drop 100).take 1).IsChain FollowsOn

section Numbers

variable {db : DB} {walletID : UUID} {before after : List LedgerRow} {row older newer : LedgerRow}

theorem ledgerSum_filter (column : LedgerRow → Int64) (ledger : List LedgerRow) :
    ledgerSum column (ledger.filter fun row => row.walletID = walletID) walletID =
      ledgerSum column ledger walletID := by
  induction ledger with
  | nil => rfl
  | cons row rest ih =>
      rw [← List.singleton_append (l := rest), ledgerSum_append, List.filter_append,
        ledgerSum_append, ih]
      by_cases hid : row.walletID = walletID <;> simp [hid]

/-- The numbers of an entry are the sums over its wallet's entries up to it. -/
theorem runningSums_of_wallet (h : LedgerExact db)
    (hsplit : (db.walletLedger.filter fun row => row.walletID = walletID) =
      before ++ row :: after) :
    row.balanceAfter.toInt =
        ledgerSum LedgerRow.amountCredits (before ++ [row]) walletID ∧
      row.reservedAfter.toInt =
        ledgerSum LedgerRow.reservedDelta (before ++ [row]) walletID := by
  obtain ⟨l₁, l₂, hledger, hbefore, htail⟩ := List.filter_eq_append_iff.mp hsplit
  obtain ⟨m₁, m₂, rfl, hothers, hid, -⟩ := List.filter_eq_cons_iff.mp htail
  have hid' : row.walletID = walletID := of_decide_eq_true hid
  have hnone : m₁.filter (fun row => row.walletID = walletID) = [] :=
    List.filter_eq_nil_iff.mpr hothers
  -- Entries of other wallets count for nothing.
  have hsum : ∀ column, ledgerSum column (l₁ ++ m₁ ++ [row]) walletID =
      ledgerSum column (before ++ [row]) walletID := by
    intro column
    rw [← ledgerSum_filter column (l₁ ++ m₁ ++ [row]), List.filter_append, List.filter_append,
      hbefore, hnone, List.append_nil, List.filter_cons, if_pos hid, List.filter_nil]
  have hsums := h.running (l₁ ++ m₁) row m₂ (by rw [hledger, List.append_assoc])
  rw [← hsum, ← hsum, ← hid']
  exact ⟨hsums.balance, hsums.reserved⟩

/-- Of two neighbours in the ledger of a wallet the newer one was made on the older one. -/
theorem followsOn_of_neighbours (h : LedgerExact db)
    (hsplit : (db.walletLedger.filter fun row => row.walletID = walletID) =
      before ++ older :: newer :: after) :
    newer.balanceAfter.toInt = older.balanceAfter.toInt + newer.amountCredits.toInt ∧
      newer.reservedAfter.toInt = older.reservedAfter.toInt + newer.reservedDelta.toInt := by
  have hnewer : (db.walletLedger.filter fun row => row.walletID = walletID) =
      (before ++ [older]) ++ newer :: after := by
    rw [hsplit, List.append_assoc, List.singleton_append]
  have hid : newer.walletID = walletID := by
    have hmem : newer ∈ db.walletLedger.filter fun row => row.walletID = walletID := by
      rw [hsplit]
      simp
    exact of_decide_eq_true (List.mem_filter.mp hmem).2
  obtain ⟨hbalance, hreserved⟩ := runningSums_of_wallet h hsplit
  obtain ⟨hbalance', hreserved'⟩ := runningSums_of_wallet h hnewer
  rw [ledgerSum_append, ← hbalance, ledgerSum_singleton, if_pos hid] at hbalance'
  rw [ledgerSum_append, ← hreserved, ledgerSum_singleton, if_pos hid] at hreserved'
  exact ⟨hbalance', hreserved'⟩

/-- The last entry of a wallet has its numbers. -/
theorem current_of_last {wallet : WalletRow} (h : LedgerExact db)
    (hwallet : db.wallet walletID = some wallet)
    (hsplit : (db.walletLedger.filter fun row => row.walletID = walletID) = before ++ [row]) :
    row.balanceAfter = wallet.balanceCredits ∧ row.reservedAfter = wallet.reservedCredits := by
  obtain ⟨hid, hexact⟩ := h.exact_of_wallet hwallet
  obtain ⟨hbalance, hreserved⟩ := runningSums_of_wallet h hsplit
  rw [← hsplit, ledgerSum_filter, ← hid] at hbalance hreserved
  exact ⟨Int64.toInt_inj.mp (hbalance.trans hexact.balance.symm),
    Int64.toInt_inj.mp (hreserved.trans hexact.reserved.symm)⟩

end Numbers

/-! ## The page in every run -/

section Runs

variable {P : Platform} {cfg : Config} {es : List (ServerEvent Operation × Nat)}
  {m : ClockedServer} {s : Records}
  {guard : ClockedServer → ServerEvent Operation × Nat → ClockedServer → Prop}

/-- What holds of the entries in every run. -/
theorem entries_of_reaches (hreach : (ledgerMachine P cfg).Reaches guard es m) (hs : Shows m s) :
    LedgerExact s.db ∧ (s.walletLedger.map fun entry => entry.publicID).Nodup := by
  have hempty : ∀ db, Fresh db → ledgerJournal.rows db = [] := by
    rintro db ⟨catalog, rfl⟩
    rfl
  obtain ⟨es', hserver⟩ := Clocked.server_of_reaches hreach
  have hlisted := Clocked.listed_of_reaches hempty hreach
  refine ⟨?_, ?_⟩
  · rw [hs.db]
    exact ledgerExact_committed hserver
  · rw [hs.walletLedger]
    exact hlisted.names

/-- The entries of a wallet without their names and times. -/
theorem rows_of_entries (walletID : UUID) (s : Records) :
    (walletEntries walletID s).map ListedEntry.toLedgerRow =
      s.db.walletLedger.filter fun row => row.walletID = walletID := by
  rw [Records.db, List.filter_map]
  rfl

/-- The newest entries are a chain. -/
theorem newestEntries_chain (h : LedgerExact s.db) (walletID : UUID) :
    (newestEntries walletID s).IsChain FollowsOn := by
  rw [newestEntries, List.isChain_map, List.isChain_reverse,
    List.isChain_iff_forall_rel_of_append_cons_cons]
  intro older newer before after hsplit
  have hrows := rows_of_entries walletID s
  rw [hsplit, List.map_append, List.map_cons, List.map_cons] at hrows
  obtain ⟨hbalance, hreserved⟩ := followsOn_of_neighbours h hrows.symm
  exact ⟨hbalance, hreserved⟩

/-- The newest entry has the numbers of the wallet. -/
theorem newestEntries_current (h : LedgerExact s.db) {walletID : UUID} {entry : LedgerEntry}
    (hentry : entry ∈ (newestEntries walletID s).head?) {wallet : WalletRow}
    (hwallet : Table.select WalletRow.id s.wallets walletID = some wallet) :
    entry.balanceAfter = wallet.balanceCredits ∧
      entry.reservedAfter = wallet.reservedCredits := by
  rcases List.eq_nil_or_concat (walletEntries walletID s) with hnil | ⟨before, last, hlast⟩
  · rw [newestEntries, hnil] at hentry
    cases hentry
  · have hrows := rows_of_entries walletID s
    rw [hlast, List.concat_eq_append, List.map_append] at hrows
    rw [newestEntries, hlast, List.concat_eq_append, List.reverse_append] at hentry
    cases hentry
    exact current_of_last h hwallet hrows.symm

/-- The newest entries in their order are a consistent page. -/
theorem consistentPage_of_newest (h : LedgerExact s.db) (walletID : UUID) :
    ConsistentPage walletID s ((newestEntries walletID s).take 100) where
  order := rfl
  current entry hentry wallet hwallet := by
    rw [List.head?_take, if_neg (by decide)] at hentry
    exact newestEntries_current h hentry hwallet
  chain := by
    rw [← List.take_add]
    exact (newestEntries_chain h walletID).take _

/-- A public id stands for one entry. -/
theorem eq_of_ledgerColumns {l l' : List ListedEntry}
    (hnames : (s.walletLedger.map fun entry => entry.publicID).Nodup)
    (hl : ∀ entry ∈ l, entry ∈ s.walletLedger) (hl' : ∀ entry ∈ l', entry ∈ s.walletLedger)
    (h : l.map ledgerColumns = l'.map ledgerColumns) : l = l' := by
  induction l generalizing l' with
  | nil =>
      cases l' with
      | nil => rfl
      | cons entry rest => cases h
  | cons entry rest ih =>
      cases l' with
      | nil => cases h
      | cons entry' rest' =>
          rw [List.map_cons, List.map_cons, List.cons.injEq] at h
          have hname : entry.publicID = entry'.publicID := congrArg LedgerEntry.publicID h.1
          have hsame : entry = entry' := List.inj_on_of_nodup_map hnames
            (hl entry List.mem_cons_self) (hl' entry' List.mem_cons_self) hname
          rw [hsame, ih (fun other hother => hl other (List.mem_cons_of_mem entry hother))
            (fun other hother => hl' other (List.mem_cons_of_mem entry' hother)) h.2]

/-- **When the page of a wallet is a history.**  Every answer of the database is a consistent page
exactly if each of the newest 100 entries has a later `created_at` than all entries before it. -/
theorem consistentPage_iff (hreach : (ledgerMachine P cfg).Reaches guard es m) (hs : Shows m s)
    (walletID : UUID) :
    (∀ page ∈ ledgerForWallet walletID s, ConsistentPage walletID s page) ↔
      Query.NewestLast ListedEntry.createdAt 100 (walletEntries walletID s) := by
  obtain ⟨hexact, hnames⟩ := entries_of_reaches hreach hs
  have hnodup : (walletEntries walletID s).Nodup := (List.Nodup.of_map _ hnames).filter _
  rw [← Query.answers_eq_iff hnodup]
  constructor
  · intro hall answer hanswer
    have hpage := hall _ ⟨answer, hanswer, rfl⟩
    have horder : answer.map ledgerColumns =
        ((walletEntries walletID s).reverse.take 100).map ledgerColumns := by
      rw [hpage.order, newestEntries, List.map_take]
    refine eq_of_ledgerColumns hnames (fun entry hentry => ?_) (fun entry hentry => ?_) horder
    · exact List.mem_of_mem_filter (Query.mem_of_mem_answers hanswer hentry)
    · exact List.mem_of_mem_filter (List.mem_reverse.mp (List.mem_of_mem_take hentry))
  · rintro hall page ⟨answer, hanswer, rfl⟩
    have horder : answer.map ledgerColumns = (newestEntries walletID s).take 100 := by
      rw [hall answer hanswer, newestEntries, List.map_take]
    rw [horder]
    exact consistentPage_of_newest hexact walletID

/-- Times that rise throughout rise at the end. -/
theorem newestLast_of_rising {walletID : UUID} (hs : Shows m s)
    (h : Clocked.Rising ledgerJournal LedgerRow.walletID walletID m) :
    Query.NewestLast ListedEntry.createdAt 100 (walletEntries walletID s) := by
  intro before row after hsplit _ older holder
  unfold Clocked.Rising Clocked.ofGroup at h
  rw [← hs.walletLedger] at h
  have hpairs : (before ++ row :: after).Pairwise fun older newer =>
      older.createdAt < newer.createdAt := hsplit ▸ h
  exact (List.pairwise_append.mp hpairs).2.2 older holder row List.mem_cons_self

end Runs

/-- **The ledger page.**  In every run in which each entry is its transaction's only one on the
wallet, and the transaction began later than all that have entries on it, the page of every
wallet is a consistent history.  In any state of any run it is exactly if the newest entries have
risen in time. -/
theorem ledger_page_is_history (P : Platform) (cfg : Config) :
    (∀ (es : List (ServerEvent Operation × Nat)) (m : ClockedServer),
      (ledgerMachine P cfg).Reaches EntriesInTurn es m → ∀ s, Shows m s → ∀ walletID,
        ∀ page ∈ ledgerForWallet walletID s, ConsistentPage walletID s page) ∧
      ∀ (es : List (ServerEvent Operation × Nat)) (m : ClockedServer),
        (ledgerMachine P cfg).Reaches Machine.anyStep es m → ∀ s, Shows m s → ∀ walletID,
          ((∀ page ∈ ledgerForWallet walletID s, ConsistentPage walletID s page) ↔
            Query.NewestLast ListedEntry.createdAt 100 (walletEntries walletID s)) := by
  refine ⟨fun es m hreach s hs walletID => ?_, fun es m hreach s hs walletID => ?_⟩
  · exact (consistentPage_iff hreach hs walletID).mpr
      (newestLast_of_rising hs (Clocked.rising_of_reaches hreach walletID))
  · exact consistentPage_iff hreach hs walletID

/-! ## Two requests of one user -/

/-- An entry with its name and its time. -/
def stamped (publicID : String) (time : Nat) (row : LedgerRow) : ListedEntry :=
  { row with publicID := publicID, createdAt := time }

def grantRow : LedgerRow := ⟨2, .grant, 10000, 0, 10000, 0, "starting_free_credits", none⟩

/-- The entry of a request that reserves credits from a wallet that has `balance` left. -/
def reserveRow (amount balance reserved : Int64) : LedgerRow :=
  ⟨2, .reserve, -amount, amount, balance, reserved, "chat_completion", none⟩

/-- A request that reserves credits. -/
def reserveRequest (amount : Int64) : Operation := .reserve 1 amount "chat_completion"

/-- The database with some credits reserved, and its ledger. -/
def reservedDB (balance reserved : Int64) (ledger : List LedgerRow) : DB :=
  { registeredDB with
    wallets := [⟨2, .user, 1, balance, reserved⟩]
    walletLedger := ledger }

/-- The fast request has reserved its five credits. -/
def fastDB : DB := reservedDB 9995 5 [grantRow, reserveRow 5 9995 5]

/-- Then the slow one has reserved three. -/
def slowDB : DB := reservedDB 9992 8 [grantRow, reserveRow 5 9995 5, reserveRow 3 9992 8]

/-- The database as the dashboard finds it, with its entries. -/
def shownRecords (balance reserved : Int64) (entries : List ListedEntry) : Records where
  users := registeredDB.users
  wallets := [⟨2, .user, 1, balance, reserved⟩]
  walletLedger := entries
  projects := []
  apiKeys := []
  providers := []
  instances := []
  advertisements := []
  models := []
  modelVersions := []
  inferenceJobs := []
  usageRecords := []
  providerStats := []
  auditLog := []
  hardwareReports := []

/-- The slow request began first. -/
def contendedRecords : Records :=
  shownRecords 9992 8 [stamped "led_1" 0 grantRow, stamped "led_2" 2 (reserveRow 5 9995 5),
    stamped "led_3" 1 (reserveRow 3 9992 8)]

/-- The page that is shown then. -/
def contendedPage : List LedgerEntry :=
  [ledgerColumns (stamped "led_2" 2 (reserveRow 5 9995 5)),
    ledgerColumns (stamped "led_3" 1 (reserveRow 3 9992 8)),
    ledgerColumns (stamped "led_1" 0 grantRow)]

/-- The fast request alone. -/
def fastRecords : Records :=
  shownRecords 9995 5 [stamped "led_1" 0 grantRow, stamped "led_2" 2 (reserveRow 5 9995 5)]

/-- The server before anything has happened. -/
def freshServer : ClockedServer where
  server := idleServer (DB.seeded ⟨[], [], [], [], [], [], []⟩)
  now := 0
  startedAt := fun _ => 0
  entries := []

/-- The server after the user has registered. -/
def registeredServer : ClockedServer where
  server := idleServer registeredDB
  now := 0
  startedAt := Function.update (fun _ => 0) 0 0
  entries := [stamped "led_1" 0 grantRow]

section Samples

theorem steps_to_registeredServer
    (guard : ClockedServer → ServerEvent Operation × Nat → ClockedServer → Prop)
    (hquiet : ∀ a b t time, guard a (.statement t, time) b)
    (hbegin : ∀ a b t op time, guard a (.begin t op, time) b)
    (hguard : ∀ a b c, b.server.active 0 = some a →
      Clocked.added ledgerJournal a = [grantRow] → b.entries = [] →
      b.startedAt = Function.update (fun _ => 0) 0 0 →
      guard b (.commit 0 sampleRegistration, 0) c) :
    ∃ es, (ledgerMachine samplePlatform sampleConfig).Reaches guard es registeredServer := by
  have hstamped : Clocked.Stamped ledgerJournal [] ([stamped "led_1" 0 grantRow].map
      ledgerJournal.row) 0 [stamped "led_1" 0 grantRow] := by
    refine ⟨rfl, fun entry hentry => ?_, by decide⟩
    rw [List.mem_singleton.mp hentry]
    rfl
  have hrows : ledgerJournal.rows registeredDB =
      ledgerJournal.rows freshServer.server.committed ++
        [stamped "led_1" 0 grantRow].map ledgerJournal.row := rfl
  obtain ⟨es, hsteps⟩ := Clocked.steps_of_transaction (m := freshServer) (t := 0) hquiet hbegin
    (Nat.le_refl 0) rfl (fun t a ha => by cases ha) exec_sampleRegistration hrows hstamped hguard
  exact ⟨es, freshServer, ⟨⟨⟨_, rfl⟩, fun _ => rfl⟩, rfl⟩, hsteps⟩

theorem exec_fast : (program samplePlatform sampleConfig (reserveRequest 5)).exec registeredDB =
    .ok ((), fastDB) := by
  decide +kernel

theorem exec_slow : (program samplePlatform sampleConfig (reserveRequest 3)).exec fastDB =
    .ok ((), slowDB) := by
  decide +kernel

/-- A request alone: the page is a history. -/
theorem page_of_one_request :
    ∀ page ∈ ledgerForWallet 2 fastRecords, ConsistentPage 2 fastRecords page := by
  have hstatement : ∀ a b t time, EntriesInTurn a (.statement t, time) b := by
    rintro a b t time t' op a' he
    cases he
  have hbegin : ∀ a b t op time, EntriesInTurn a (.begin t op, time) b := by
    rintro a b t op time t' op' a' he
    cases he
  obtain ⟨es, hreach⟩ := steps_to_registeredServer EntriesInTurn hstatement hbegin
    fun a b c ha hadded hentries hstarted => Clocked.inTurn_of_single ha hadded
      fun entry hentry => by rw [hentries] at hentry; cases hentry
  have hstamped : Clocked.Stamped ledgerJournal registeredServer.entries
      ([stamped "led_2" 2 (reserveRow 5 9995 5)].map ledgerJournal.row) 2
      [stamped "led_2" 2 (reserveRow 5 9995 5)] := by
    refine ⟨rfl, fun entry hentry => ?_, by decide⟩
    rw [List.mem_singleton.mp hentry]
    rfl
  have hrows : ledgerJournal.rows fastDB =
      ledgerJournal.rows registeredServer.server.committed ++
        [stamped "led_2" 2 (reserveRow 5 9995 5)].map ledgerJournal.row := rfl
  obtain ⟨es', hsteps⟩ := Clocked.steps_of_transaction (m := registeredServer) (t := 0)
    hstatement hbegin (Nat.zero_le 2) rfl (fun t a ha => by cases ha) exec_fast hrows hstamped
    fun a b c ha hadded hentries hstarted => Clocked.inTurn_of_single ha hadded
      fun entry hentry => by
        rw [hentries] at hentry
        rw [hstarted, List.mem_singleton.mp hentry]
        exact Nat.zero_lt_two
  exact (ledger_page_is_history samplePlatform sampleConfig).1 _ _ (hreach.steps hsteps)
    fastRecords ⟨rfl, rfl⟩ 2

/-- The slow request began first and was answered last: the page ends with the entry before. -/
theorem page_of_two_requests :
    ∃ es m, (ledgerMachine samplePlatform sampleConfig).Reaches Machine.anyStep es m ∧
      Shows m contendedRecords ∧ contendedPage ∈ ledgerForWallet 2 contendedRecords ∧
      ¬ ConsistentPage 2 contendedRecords contendedPage := by
  let anyEvent : ClockedServer → ServerEvent Operation × Nat → ClockedServer → Prop :=
    Machine.anyStep
  have hquiet : ∀ a b t time, anyEvent a (.statement t, time) b := fun _ _ _ _ => trivial
  have hbegins : ∀ a b t op time, anyEvent a (.begin t op, time) b := fun _ _ _ _ _ => trivial
  obtain ⟨es, hreach⟩ := steps_to_registeredServer anyEvent hquiet hbegins
    fun _ _ _ _ _ _ _ => trivial
  -- The slow request begins.
  let begun : ClockedServer :=
    { registeredServer with
      server := registeredServer.server.set 0
        (some ⟨reserveRequest 3, program samplePlatform sampleConfig (reserveRequest 3), [], []⟩)
      now := 1
      startedAt := Function.update registeredServer.startedAt 0 1 }
  have hbegin : Clocked.Step ledgerJournal (program samplePlatform sampleConfig)
      registeredServer (.begin 0 (reserveRequest 3), 1) begun := .begin (Nat.zero_le 1) (.begin rfl)
  -- The fast one begins and is carried through.
  have hstamped : Clocked.Stamped ledgerJournal begun.entries
      ([stamped "led_2" 2 (reserveRow 5 9995 5)].map ledgerJournal.row) 2
      [stamped "led_2" 2 (reserveRow 5 9995 5)] := by
    refine ⟨rfl, fun entry hentry => ?_, by decide⟩
    rw [List.mem_singleton.mp hentry]
    rfl
  have hrows : ledgerJournal.rows fastDB = ledgerJournal.rows begun.server.committed ++
      [stamped "led_2" 2 (reserveRow 5 9995 5)].map ledgerJournal.row := rfl
  have hunlocked : ∀ t a, begun.server.active t = some a → a.locks = [] := by
    intro t a ha
    by_cases ht : t = 0
    · subst ht
      cases ha
      rfl
    · rw [Server.set_active, Function.update_of_ne ht] at ha
      cases ha
  obtain ⟨es', hfast⟩ := Clocked.steps_of_transaction (m := begun) (t := 1)
    hquiet hbegins (Nat.le_succ 1) rfl hunlocked exec_fast hrows hstamped
    fun _ _ _ _ _ _ _ => trivial
  -- The slow one goes on.
  let waiting : ClockedServer :=
    { server := { begun.server with committed := fastDB }
      now := 2
      startedAt := Function.update begun.startedAt 1 2
      entries := begun.entries ++ [stamped "led_2" 2 (reserveRow 5 9995 5)] }
  have hstamped' : Clocked.Stamped ledgerJournal waiting.entries
      ([stamped "led_3" 1 (reserveRow 3 9992 8)].map ledgerJournal.row) (waiting.startedAt 0)
      [stamped "led_3" 1 (reserveRow 3 9992 8)] := by
    refine ⟨rfl, fun entry hentry => ?_, by decide⟩
    rw [List.mem_singleton.mp hentry]
    rfl
  have hrows' : ledgerJournal.rows slowDB = ledgerJournal.rows waiting.server.committed ++
      [stamped "led_3" 1 (reserveRow 3 9992 8)].map ledgerJournal.row := rfl
  have hothers : ∀ t a, t ≠ 0 → waiting.server.active t = some a → a.locks = [] :=
    fun t a _ ha => hunlocked t a ha
  obtain ⟨n, hslow⟩ := Clocked.steps_of_exec (m := waiting) (t := 0) hquiet rfl hothers
    exec_slow hrows' hstamped' fun _ _ _ _ _ _ _ => trivial
  refine ⟨_, _, ((hreach.snoc hbegin trivial).steps hfast).steps hslow, ⟨rfl, rfl⟩, ?_, ?_⟩
  · exact ⟨_, Query.newestFirst_mem_answers, by decide +kernel⟩
  · intro hpage
    have hcurrent : (9995 : Int64) = 9992 ∧ (5 : Int64) = 8 :=
      hpage.current (ledgerColumns (stamped "led_2" 2 (reserveRow 5 9995 5))) rfl
        ⟨2, .user, 1, 9992, 8⟩ rfl
    exact absurd hcurrent.1 (by decide)

end Samples

end Nuvonode.Contract
