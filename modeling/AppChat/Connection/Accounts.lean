/-
  `Connection.Accounts`: registrations and log ins over the life of a database.

  The table `logins` outlives the process that writes it; the counter its ids come
  from does not.  This file says when registering and logging in agree, and when
  two accounts have different ids.
-/
import AppChat.Channel.Membership
import AppChat.Connection.Server
import AppChat.Storage.ChatSafety

set_option autoImplicit false

namespace AppChat.Connection

open Foundation Foundation.SqlText Storage Serialize

/-! ## The life of a database -/

/-- A step of the process, or the start of the next process: its handle is open
or NULL, and the members of its connections are not initialised. -/
inductive LifeEvent where
  | step (event : Event) (out : List Output)
  | restart (opened : Bool) (clientIds : ConnectionId → Identifier)

namespace Server

variable {E : Sqlite}

/-- The shared `Database` object. -/
abbrev database (sv : Server (sqlDatabase E)) : Database E := sv.chat.db

/-- The rows of the table `logins`. -/
def accounts (sv : Server (sqlDatabase E)) : List LoginsRow := E.logins sv.database.store

/-- The first process, on a new file. -/
def first (E : Sqlite) (opened : Bool) (clientIds : ConnectionId → Identifier) :
    Server (sqlDatabase E) :=
  init (⟨opened, E.empty⟩ : Database E) clientIds

/-- The next process, on the same file. -/
def restart (sv : Server (sqlDatabase E)) (opened : Bool)
    (clientIds : ConnectionId → Identifier) : Server (sqlDatabase E) :=
  init (⟨opened, sv.database.store⟩ : Database E) clientIds

/-- A step of the process, or the start of the next one. -/
def LifeStep (E : Sqlite) (sv : Server (sqlDatabase E)) :
    LifeEvent → Server (sqlDatabase E) → Prop
  | .step e out, sv' => Step (sqlDatabase E) sv (e, out) sv'
  | .restart opened clientIds, sv' => sv' = sv.restart opened clientIds

/-- The event registers a login that the server does not find, so that it issues
an id and inserts a row. -/
def Issues (sv : Server (sqlDatabase E)) (e : LifeEvent) (m : RegRequest) : Prop :=
  (∃ s out, e = .step (.handle s ⟨.doRegistration, .registerRequest m⟩) out) ∧
    sv.database.getLoginid m.login = -1

/-- Only a registration issues an id. -/
theorem not_issues {sv : Server (sqlDatabase E)} {s : ConnectionId} {handler : Handler} {r : Request} {out : List Output}
    (h : ∀ m, (⟨handler, r⟩ : Task) ≠ ⟨.doRegistration, .registerRequest m⟩) (m : RegRequest) :
    ¬ sv.Issues (.step (.handle s ⟨handler, r⟩) out) m := by
  rintro ⟨⟨s', out', hevent⟩, -⟩
  cases hevent
  exact h m rfl

/-- The counter does not overflow, and what SQLite is handed on an open handle is
one insert. -/
structure Orderly (sv : Server (sqlDatabase E)) (e : LifeEvent) : Prop where
  counter : ∀ m, sv.Issues e m → sv.lastId.toInt < 2 ^ 31 - 1
  account : ∀ m, sv.Issues e m → sv.database.isOpen = true →
    WellQuoted m.login ∧ WellQuoted m.password
  text : ∀ s m out, e = .step (.handle s ⟨.doTextMsg, .textRequest m⟩) out →
    sv.database.isOpen = true → OneInsert ⟨m.roomId, m.login, m.text⟩

theorem orderly_register {sv : Server (sqlDatabase E)} {s : ConnectionId} {m : RegRequest}
    {out : List Output} (hcounter : sv.lastId.toInt < 2 ^ 31 - 1) (hlogin : WellQuoted m.login)
    (hpassword : WellQuoted m.password) :
    sv.Orderly (.step (.handle s ⟨.doRegistration, .registerRequest m⟩) out) := by
  refine ⟨fun _ _ => hcounter, ?_, ?_⟩
  · rintro m' ⟨⟨s', out', hevent⟩, -⟩ -
    cases hevent
    exact ⟨hlogin, hpassword⟩
  · intro s' m' out' hevent
    cases hevent

/-! ## What an orderly step does to the accounts -/

/-- The event inserts the row of the values `a` and `p` for the request `m`. -/
structure Inserts (sv : Server (sqlDatabase E)) (e : LifeEvent) (m : RegRequest) (a p : Bytes) :
    Prop where
  issues : sv.Issues e m
  isOpen : sv.database.isOpen = true
  counter : sv.lastId.toInt < 2 ^ 31 - 1
  login : double a = m.login
  password : double p = m.password
  zero_login : 0 ∉ a
  zero_password : 0 ∉ p
  isNew : Storage.lastId (sv.accounts.filter (·.login = a)) = -1

/-- A step leaves the accounts alone, or loses a registration because the handle is
NULL, or inserts one row.  A restart keeps the rows and forgets the counter. -/
inductive AccountEffect (sv : Server (sqlDatabase E)) (e : LifeEvent)
    (sv' : Server (sqlDatabase E)) : Prop where
  | keep :
      (∀ m, ¬ sv.Issues e m) → sv'.database.isOpen = sv.database.isOpen →
      sv'.accounts = sv.accounts → sv'.lastId = sv.lastId → AccountEffect sv e sv'
  | lose :
      sv.database.isOpen = false → sv'.database.isOpen = false → sv'.accounts = sv.accounts →
      sv.lastId.toInt < 2 ^ 31 - 1 → sv'.lastId = sv.lastId + 1 → AccountEffect sv e sv'
  | insert {m : RegRequest} {a p : Bytes} :
      sv.Inserts e m a p → sv'.database.isOpen = true →
      sv'.accounts = sv.accounts ++ [⟨a, sv.lastId + 1, p⟩] →
      sv'.lastId = sv.lastId + 1 → AccountEffect sv e sv'
  | restart {opened : Bool} {clientIds : ConnectionId → Identifier} :
      e = .restart opened clientIds → sv'.accounts = sv.accounts → sv'.lastId = 0 →
      AccountEffect sv e sv'

section Effect

variable (hE : E.Lawful) {sv sv' : Server (sqlDatabase E)}
include hE

/-- A registration of values that are new is answered with the next id. -/
theorem exists_register (hopen : sv.database.isOpen = true) (s : ConnectionId) {m : RegRequest}
    {a p : Bytes} (ha : double a = m.login) (hp : double p = m.password) (hza : 0 ∉ a)
    (hzp : 0 ∉ p) (hnew : Storage.lastId (sv.accounts.filter (·.login = a)) = -1) :
    ∃ sv' : Server (sqlDatabase E),
      Step (sqlDatabase E) sv
        (.handle s ⟨.doRegistration, .registerRequest m⟩, [.regResponse s (sv.lastId + 1)]) sv' ∧
      sv'.database.isOpen = true ∧ sv'.accounts = sv.accounts ++ [⟨a, sv.lastId + 1, p⟩] ∧
      sv'.lastId = sv.lastId + 1 := by
  have hid : sv.database.getLoginid m.login = -1 := by
    rw [getLoginid_of_bodies hE hopen ha hza]
    exact hnew
  obtain ⟨st', hadd, hlogins, -⟩ :=
    Database.addLogins_of_bodies hE hopen (sv.lastId + 1) ha hp hza hzp
  exact ⟨_, step_of_effect (.register hid hadd), hopen, hlogins, rfl⟩

theorem accountEffect_register {s : ConnectionId} {m : RegRequest} {out : List Output}
    {db : Database E} (hid : sv.database.getLoginid m.login = -1)
    (hadd : sv.database.addLogins m.login (sv.lastId + 1) m.password = some db)
    (hord : sv.Orderly (.step (.handle s ⟨.doRegistration, .registerRequest m⟩) out))
    (hdb : sv'.database = db) (hlast : sv'.lastId = sv.lastId + 1) :
    AccountEffect sv (.step (.handle s ⟨.doRegistration, .registerRequest m⟩) out) sv' := by
  have hissues : sv.Issues (.step (.handle s ⟨.doRegistration, .registerRequest m⟩) out) m :=
    ⟨⟨s, out, rfl⟩, hid⟩
  have hcounter := hord.counter m hissues
  cases hopen : sv.database.isOpen with
  | false =>
      have hkept : sv'.database = sv.database := by
        rw [Database.addLogins_of_closed hopen, Option.some.injEq] at hadd
        rw [hdb, hadd]
      exact .lose hopen (by rw [hkept, hopen]) (by rw [accounts, hkept]; rfl) hcounter hlast
  | true =>
      obtain ⟨hlogin, hpassword⟩ := hord.account m hissues hopen
      obtain ⟨a, -, ha, hza⟩ := hlogin.exists_double
      obtain ⟨p, -, hp, hzp⟩ := hpassword.exists_double
      obtain ⟨st', hadd', hlogins, -⟩ :=
        Database.addLogins_of_bodies hE hopen (sv.lastId + 1) ha hp hza hzp
      rw [hadd', Option.some.injEq] at hadd
      rw [getLoginid_of_bodies hE hopen ha hza] at hid
      refine .insert ⟨hissues, hopen, hcounter, ha, hp, hza, hzp, hid⟩ ?_ ?_ hlast
      · rw [hdb, ← hadd]
        exact hopen
      · rw [accounts, hdb, ← hadd]
        exact hlogins

theorem accountEffect_text {s : ConnectionId} {m : TextRequest} {out : List Output}
    (hord : sv.Orderly (.step (.handle s ⟨.doTextMsg, .textRequest m⟩) out))
    (hdb : sv'.database = sv.database.saveTextMsg ⟨m.roomId, m.login, m.text⟩)
    (hlast : sv'.lastId = sv.lastId) :
    AccountEffect sv (.step (.handle s ⟨.doTextMsg, .textRequest m⟩) out) sv' := by
  cases hopen : sv.database.isOpen with
  | false =>
      rw [Database.saveTextMsg_of_closed hopen] at hdb
      exact .keep (not_issues (by simp)) (by rw [hdb]) (by rw [accounts, hdb]; rfl) hlast
  | true =>
      obtain ⟨st', hsaved, hlogins⟩ := saveTextMsg_of_oneInsert hE hopen (hord.text s m out rfl hopen)
      rw [hsaved] at hdb
      exact .keep (not_issues (by simp)) (by rw [hdb])
        (by rw [accounts, hdb]; exact hlogins) hlast

/-- A join reads the history and changes no table. -/
theorem database_join {s : ConnectionId} {r : Identifier} {result : JoinResult (sqlDatabase E)}
    (h : sv.chat.manager.join sv.view s r sv.chat.db = some result) : result.db = sv.database := by
  obtain ⟨_, hroom, -⟩ := ChannelsManager.join_cases h
  rcases hroom with ⟨-, hdb⟩ | ⟨-, history, hload, -⟩
  · exact hdb
  · have hsame : (sv.database.getHistory r).1 = sv.database := Database.getHistory_fst hE _ _
    exact (congrArg Prod.fst hload).symm.trans hsame

/-- Every orderly step is of one of the kinds. -/
theorem accountEffect_of_step {e : LifeEvent} (h : Guarded Orderly (LifeStep E) sv e sv') :
    AccountEffect sv e sv' := by
  obtain ⟨hord, hstep⟩ := h
  cases e with
  | restart opened clientIds =>
      subst hstep
      exact .restart rfl rfl rfl
  | step e out =>
      cases effect_of_step hstep with
      | login _ => exact .keep (not_issues (by simp)) rfl rfl rfl
      | register hid hadd => exact accountEffect_register hE hid hadd hord rfl rfl
      | refuse hid =>
          refine .keep ?_ rfl rfl rfl
          rintro m ⟨⟨s, out, hevent⟩, hid'⟩
          cases hevent
          exact hid hid'
      | @join s m result hjoin =>
          have hdb : result.db = sv.database := database_join hE hjoin
          exact .keep (not_issues (by simp)) (congrArg Database.isOpen hdb)
            (congrArg (fun db : Database E => E.logins db.store) hdb) rfl
      | text => exact accountEffect_text hE hord rfl rfl
      | free hfrees =>
          refine .keep ?_ rfl rfl rfl
          rintro m ⟨⟨s, out, hevent⟩, -⟩
          cases hevent
          cases hfrees
      | ignore hignored =>
          refine .keep ?_ rfl rfl rfl
          rintro m ⟨⟨s, out, hevent⟩, -⟩
          cases hevent
          cases hignored

end Effect

/-! ## The table is a function of the login -/

/-- Ids are positive, and no login has two rows. -/
structure SoundAccounts (sv : Server (sqlDatabase E)) : Prop where
  counter : 0 ≤ sv.lastId.toInt
  positive : ∀ row ∈ sv.accounts, 0 < row.loginId.toInt
  nodup : (sv.accounts.map (·.login)).Nodup

/-- Below the largest value, counting is counting. -/
theorem toInt_succ {i : Identifier} (hpos : 0 ≤ i.toInt) (hlt : i.toInt < 2 ^ 31 - 1) :
    (i + 1).toInt = i.toInt + 1 := by
  have hone : (1 : Identifier).toInt = 1 := by decide
  rw [Int32.toInt_add, hone, Int.bmod_def]
  omega

theorem ne_minusOne_of_pos {i : Identifier} (h : 0 < i.toInt) : i ≠ -1 := by
  rintro rfl
  exact absurd h (by decide)

/-- The last id of some rows is not -1. -/
theorem lastId_ne_minusOne {rows : List LoginsRow} (hne : rows ≠ [])
    (hpos : ∀ row ∈ rows, 0 < row.loginId.toInt) : Storage.lastId rows ≠ -1 := by
  have hlast := hpos _ (List.getLast_mem hne)
  rw [Storage.lastId, List.getLast?_eq_getLast_of_ne_nil hne]
  exact ne_minusOne_of_pos hlast

/-- A login whose row is inserted had none. -/
theorem Inserts.not_mem {sv : Server (sqlDatabase E)} {e : LifeEvent} {m : RegRequest}
    {a p : Bytes} (h : sv.Inserts e m a p) (hs : sv.SoundAccounts) :
    ∀ row ∈ sv.accounts, row.login ≠ a := by
  intro row hrow hlogin
  have hmem : row ∈ sv.accounts.filter (·.login = a) :=
    List.mem_filter.mpr ⟨hrow, decide_eq_true hlogin⟩
  refine lastId_ne_minusOne (List.ne_nil_of_mem hmem) ?_ h.isNew
  intro other hother
  exact hs.positive other (List.mem_of_mem_filter hother)

/-- The rows and a sound counter are all there is to it. -/
theorem SoundAccounts.of_accounts {sv sv' : Server (sqlDatabase E)} (hs : sv.SoundAccounts)
    (haccounts : sv'.accounts = sv.accounts) (hcounter : 0 ≤ sv'.lastId.toInt) :
    sv'.SoundAccounts := by
  refine ⟨hcounter, ?_, ?_⟩
  · rw [haccounts]
    exact hs.positive
  · rw [haccounts]
    exact hs.nodup

theorem soundAccounts_effect {sv sv' : Server (sqlDatabase E)} {e : LifeEvent}
    (h : AccountEffect sv e sv') (hs : sv.SoundAccounts) : sv'.SoundAccounts := by
  cases h with
  | keep _ _ haccounts hlast => exact hs.of_accounts haccounts (hlast ▸ hs.counter)
  | lose _ _ haccounts hcounter hlast =>
      refine hs.of_accounts haccounts ?_
      rw [hlast, toInt_succ hs.counter hcounter]
      exact Int.le_add_one hs.counter
  | @insert m a p hins _ haccounts hlast =>
      have hsucc := toInt_succ hs.counter hins.counter
      refine ⟨?_, ?_, ?_⟩
      · rw [hlast, hsucc]
        exact Int.le_add_one hs.counter
      · intro row hrow
        rw [haccounts, List.mem_append, List.mem_singleton] at hrow
        rcases hrow with hold | rfl
        · exact hs.positive row hold
        · rw [hsucc]
          exact Int.lt_add_one_of_le hs.counter
      · rw [haccounts, List.map_append, List.map_singleton]
        refine List.nodup_append'.mpr ⟨hs.nodup, List.nodup_singleton _, ?_⟩
        intro login hold hnew
        rw [List.mem_singleton] at hnew
        obtain ⟨row, hrow, hlogin⟩ := List.mem_map.mp hold
        exact hins.not_mem hs row hrow (hlogin.trans hnew)
  | restart _ haccounts hlast => exact hs.of_accounts haccounts (hlast ▸ le_refl 0)

theorem soundAccounts_first (hE : E.Lawful) (opened : Bool)
    (clientIds : ConnectionId → Identifier) : (first E opened clientIds).SoundAccounts := by
  have hempty : (first E opened clientIds).accounts = [] := hE.logins_empty
  refine ⟨le_refl 0, ?_, ?_⟩
  · rw [hempty]
    exact fun row hrow => absurd hrow List.not_mem_nil
  · rw [hempty]
    exact List.nodup_nil

theorem soundAccounts_of_run (hE : E.Lawful) {sv sv' : Server (sqlDatabase E)}
    {events : List LifeEvent} (h : Run (Guarded Orderly (LifeStep E)) sv events sv')
    (hs : sv.SoundAccounts) : sv'.SoundAccounts :=
  h.invariant (fun _ _ _ hstep => soundAccounts_effect (accountEffect_of_step hE hstep)) hs

/-! ## Registering and logging in -/

/-- A log in to `l` is answered with `c` for the password `p` and with -1 for any
other, and `l` cannot be registered again. -/
structure Agrees {D : DatabaseOps} (sv : Server D) (l p : Bytes) (c : Identifier) : Prop where
  autorisation : ∀ s p', ∃ sv', Step D sv
    (.handle s ⟨.doAutorisation, .inputRequest ⟨l, p'⟩⟩, [.autoResponse s (if p' = p then c else -1)])
    sv'
  registration : ∀ s p', ∃ sv', Step D sv
    (.handle s ⟨.doRegistration, .registerRequest ⟨l, p'⟩⟩, [.regResponse s (-1)]) sv'

theorem Agrees.checkClient_eq {D : DatabaseOps} {sv : Server D} {l p : Bytes} {c : Identifier}
    (h : sv.Agrees l p c) (p' : Bytes) :
    D.checkClient sv.chat.db l p' = some (if p' = p then c else -1) := by
  obtain ⟨sv', hstep⟩ := h.autorisation 0 p'
  simp only [Step, apply, handle, doAutorisation] at hstep
  cases hcheck : D.checkClient sv.chat.db l p' with
  | none =>
      rw [hcheck] at hstep
      cases hstep
  | some clientId =>
      rw [hcheck] at hstep
      have hout := congrArg Prod.snd (Option.some.inj hstep)
      have hid : clientId = if p' = p then c else -1 := by simpa using hout
      rw [hid]

theorem agrees_of_lookUps {D : DatabaseOps} {sv : Server D} {l p : Bytes} {c : Identifier}
    (hcheck : ∀ p', D.checkClient sv.chat.db l p' = some (if p' = p then c else -1))
    (hid : D.getLoginid sv.chat.db l ≠ -1) : sv.Agrees l p c where
  autorisation s p' := ⟨_, step_of_effect (@Effect.login D sv s ⟨l, p'⟩ _ (hcheck p'))⟩
  registration s p' := ⟨_, step_of_effect (@Effect.refuse D sv s ⟨l, p'⟩ hid)⟩

/-- With distinct logins, a row is the only one of its login. -/
theorem filter_login_eq_singleton {rows : List LoginsRow} (h : (rows.map (·.login)).Nodup)
    {row : LoginsRow} (hrow : row ∈ rows) : rows.filter (·.login = row.login) = [row] := by
  induction rows with
  | nil => cases hrow
  | cons first rows ih =>
      rw [List.map_cons, List.nodup_cons] at h
      rcases List.mem_cons.mp hrow with rfl | hrest
      · have hnone : rows.filter (·.login = row.login) = [] := by
          rw [List.filter_eq_nil_iff]
          intro other hother hlogin
          exact h.1 (List.mem_map.mpr ⟨other, hother, of_decide_eq_true hlogin⟩)
        rw [List.filter_cons_of_pos (by simp), hnone]
      · have hne : first.login ≠ row.login := by
          intro heq
          exact h.1 (List.mem_map.mpr ⟨row, hrest, heq.symm⟩)
        rw [List.filter_cons_of_neg (by simp [hne]), ih h.2 hrest]

/-- The table has the row that a registration of `l` and `p` with the id `c`
inserts. -/
structure Registered (sv : Server (sqlDatabase E)) (l p : Bytes) (c : Identifier) (a v : Bytes) :
    Prop where
  sound : sv.SoundAccounts
  isOpen : sv.database.isOpen = true
  login : double a = l
  password : double v = p
  zero_login : 0 ∉ a
  zero_password : 0 ∉ v
  row : ⟨a, c, v⟩ ∈ sv.accounts

section Registered

variable (hE : E.Lawful) {sv : Server (sqlDatabase E)} {l p : Bytes} {c : Identifier} {a v : Bytes}
include hE

theorem Registered.getLoginid_eq (h : sv.Registered l p c a v) : sv.database.getLoginid l = c := by
  have hrows := filter_login_eq_singleton h.sound.nodup h.row
  rw [getLoginid_of_bodies hE h.isOpen h.login h.zero_login]
  exact congrArg Storage.lastId hrows

theorem Registered.checkClient_eq (h : sv.Registered l p c a v) (hv : v ≠ []) (p' : Bytes) :
    sv.database.checkClient l p' = some (if p' = v then c else -1) := by
  have hrows := filter_login_eq_singleton h.sound.nodup h.row
  have hrow : ∀ row ∈ E.logins sv.database.store, row.login = a → row.password ≠ [] := by
    intro row hrow hlogin
    have hmem : row ∈ sv.accounts.filter (·.login = a) :=
      List.mem_filter.mpr ⟨hrow, decide_eq_true hlogin⟩
    rw [hrows, List.mem_singleton] at hmem
    rw [hmem]
    exact hv
  rw [checkClient_of_bodies hE h.isOpen h.login h.zero_login hrow]
  change some (Storage.lastId ((sv.accounts.filter (·.login = a)).filter _)) = _
  rw [hrows, List.filter_singleton, cString_of_not_mem h.zero_password]
  by_cases hp : p' = v
  · simp [hp, Storage.lastId]
  · simp [hp]

/-- With an empty password the row is a NULL pointer to `check_client`. -/
theorem Registered.checkClient_empty (h : sv.Registered l p c a []) (p' : Bytes) :
    sv.database.checkClient l p' = none := by
  have hrows := filter_login_eq_singleton h.sound.nodup h.row
  rw [Database.checkClient, Database.select_loginsQuery hE h.isOpen h.login h.zero_login]
  change ((sv.accounts.filter (·.login = a)).map LoginsRow.toResult).foldlM _ _ = _
  rw [hrows]
  rfl

theorem Registered.agrees_iff (h : sv.Registered l p c a v) : sv.Agrees l p c ↔ Plain p := by
  have hpos : 0 < c.toInt := h.sound.positive _ h.row
  have hc : c ≠ -1 := ne_minusOne_of_pos hpos
  constructor
  · intro hagrees
    have hself := hagrees.checkClient_eq p
    rw [if_pos rfl] at hself
    have hv : v ≠ [] := by
      rintro rfl
      have hnone : (sqlDatabase E).checkClient sv.chat.db l p = none := h.checkClient_empty hE p
      rw [hnone] at hself
      cases hself
    have hsome : (sqlDatabase E).checkClient sv.chat.db l p = some (if p = v then c else -1) :=
      h.checkClient_eq hE hv p
    have hpv : p = v := by
      by_contra hne
      rw [hsome, if_neg hne, Option.some.injEq] at hself
      exact hc hself.symm
    subst hpv
    exact ⟨hv, double_eq_self_iff.mp h.password, h.zero_password⟩
  · intro hplain
    have hpv : v = p := by
      rw [← Option.some.injEq, ← undouble_double v, h.password]
      exact undouble_eq_self hplain.quote_not_mem
    subst hpv
    refine agrees_of_lookUps (h.checkClient_eq hE hplain.ne_nil) ?_
    have hid : (sqlDatabase E).getLoginid sv.chat.db l = c := h.getLoginid_eq hE
    rw [hid]
    exact hc

end Registered

/-- An orderly step of one process. -/
def ProcessStep (E : Sqlite) (sv : Server (sqlDatabase E)) (label : Event × List Output)
    (sv' : Server (sqlDatabase E)) : Prop :=
  Guarded Orderly (LifeStep E) sv (.step label.1 label.2) sv'

section Process

variable (hE : E.Lawful) {sv sv' : Server (sqlDatabase E)} {label : Event × List Output}
include hE

theorem isOpen_step (h : ProcessStep E sv label sv') :
    sv'.database.isOpen = sv.database.isOpen := by
  cases accountEffect_of_step hE h with
  | keep _ hopen _ _ => exact hopen
  | lose hclosed hclosed' _ _ _ => rw [hclosed, hclosed']
  | insert hins hopen _ _ => rw [hopen, hins.isOpen]
  | restart hevent _ _ => cases hevent

/-- Rows stay. -/
theorem mem_accounts_step (h : ProcessStep E sv label sv') {row : LoginsRow}
    (hrow : row ∈ sv.accounts) : row ∈ sv'.accounts := by
  cases accountEffect_of_step hE h with
  | keep _ _ haccounts _ => rwa [haccounts]
  | lose _ _ haccounts _ _ => rwa [haccounts]
  | insert _ _ haccounts _ =>
      rw [haccounts]
      exact List.mem_append_left _ hrow
  | restart _ haccounts _ => rwa [haccounts]

theorem registered_step {l p : Bytes} {c : Identifier} {a v : Bytes}
    (h : ProcessStep E sv label sv') (hr : sv.Registered l p c a v) :
    sv'.Registered l p c a v where
  sound := soundAccounts_effect (accountEffect_of_step hE h) hr.sound
  isOpen := (isOpen_step hE h).trans hr.isOpen
  login := hr.login
  password := hr.password
  zero_login := hr.zero_login
  zero_password := hr.zero_password
  row := mem_accounts_step hE h hr.row

end Process

/-- A registration that is answered OK has issued an id. -/
theorem issues_of_step {sv sv₁ : Server (sqlDatabase E)} {s : ConnectionId} {m : RegRequest}
    {c : Identifier}
    (h : Step (sqlDatabase E) sv
      (.handle s ⟨.doRegistration, .registerRequest m⟩, [.regResponse s c]) sv₁) (hc : c ≠ -1) :
    sv.Issues (.step (.handle s ⟨.doRegistration, .registerRequest m⟩) [.regResponse s c]) m ∧
      c = sv.lastId + 1 := by
  simp only [Step, apply, handle, doRegistration] at h
  split at h
  · rename_i hid
    split at h
    · cases h
    · have hout := congrArg Prod.snd (Option.some.inj h)
      simp only [List.cons.injEq, Output.regResponse.injEq, true_and, and_true] at hout
      exact ⟨⟨⟨s, _, rfl⟩, hid⟩, hout.symm⟩
  · have hout := congrArg Prod.snd (Option.some.inj h)
    simp only [List.cons.injEq, Output.regResponse.injEq, true_and, and_true] at hout
    exact absurd hout.symm hc

/-- On an open handle an orderly registration that is answered OK is in the table. -/
theorem exists_registered (hE : E.Lawful) {sv sv₁ : Server (sqlDatabase E)} {s : ConnectionId}
    {m : RegRequest} {c : Identifier} (hs : sv.SoundAccounts)
    (h : ProcessStep E sv
      (.handle s ⟨.doRegistration, .registerRequest m⟩, [.regResponse s c]) sv₁)
    (hc : c ≠ -1) (hopen : sv.database.isOpen = true) :
    ∃ a v, sv₁.Registered m.login m.password c a v := by
  obtain ⟨hissues, rfl⟩ := issues_of_step h.2 hc
  obtain ⟨hlogin, hpassword⟩ := h.1.account m hissues hopen
  obtain ⟨a, -, ha, hza⟩ := hlogin.exists_double
  obtain ⟨v, -, hv, hzv⟩ := hpassword.exists_double
  have hnew := hissues.2
  rw [getLoginid_of_bodies hE hopen ha hza] at hnew
  obtain ⟨sv', hstep, hopen', haccounts, -⟩ := exists_register hE hopen s ha hv hza hzv hnew
  have hsame := step_deterministic hstep h.2
  subst hsame
  refine ⟨a, v, soundAccounts_effect (accountEffect_of_step hE h) hs, hopen', ha, hv, hza, hzv, ?_⟩
  rw [haccounts]
  exact List.mem_append_right _ (List.mem_singleton_self _)

/-- A closed handle answers every log in with -1. -/
theorem not_agrees_of_closed {sv : Server (sqlDatabase E)} {l p : Bytes} {c : Identifier}
    (hc : c ≠ -1) (hclosed : sv.database.isOpen = false) : ¬ sv.Agrees l p c := by
  intro hagrees
  have hself := hagrees.checkClient_eq p
  have hminus : (sqlDatabase E).checkClient sv.chat.db l p = some (-1) :=
    Database.checkClient_of_closed hclosed l p
  rw [hminus, if_pos rfl, Option.some.injEq] at hself
  exact hc hself.symm

/-- **Registering and logging in agree.**  In an orderly life of a database, a
registration that is answered OK agrees with all later log ins and registrations
of the same process exactly when it found the handle open and its password is
plain. -/
theorem agrees_iff_plain (hE : E.Lawful) {opened : Bool} {clientIds : ConnectionId → Identifier}
    {before : List LifeEvent} {after : List (Event × List Output)}
    {sv sv₁ sv₂ : Server (sqlDatabase E)} {s : ConnectionId} {m : RegRequest} {c : Identifier}
    (hbefore : Run (Guarded Orderly (LifeStep E)) (first E opened clientIds) before sv)
    (hreg : ProcessStep E sv
      (.handle s ⟨.doRegistration, .registerRequest m⟩, [.regResponse s c]) sv₁)
    (hc : c ≠ -1) (hafter : Run (ProcessStep E) sv₁ after sv₂) :
    sv₂.Agrees m.login m.password c ↔ sv.database.isOpen = true ∧ Plain m.password := by
  have hs := soundAccounts_of_run hE hbefore (soundAccounts_first hE opened clientIds)
  cases hopen : sv.database.isOpen with
  | false =>
      let Closed : Server (sqlDatabase E) → Prop := fun sv => sv.database.isOpen = false
      have hclosed₁ : Closed sv₁ := (isOpen_step hE hreg).trans hopen
      have hclosed₂ : Closed sv₂ :=
        hafter.invariant (fun _ _ _ hstep hclosed => (isOpen_step hE hstep).trans hclosed) hclosed₁
      exact iff_of_false (not_agrees_of_closed hc hclosed₂) (by simp)
  | true =>
      obtain ⟨a, v, hregistered⟩ := exists_registered hE hs hreg hc hopen
      let Kept : Server (sqlDatabase E) → Prop := fun sv => sv.Registered m.login m.password c a v
      have hkept : Kept sv₂ :=
        hafter.invariant (fun _ _ _ hstep hr => registered_step hE hstep hr) hregistered
      rw [hkept.agrees_iff hE]
      simp

/-- An account whose texts are plain. -/
theorem agrees_iff_plain_account :
    ∃ sv₁ : Server (sqlDatabase memorySqlite),
      Step (sqlDatabase memorySqlite) (first memorySqlite true fun _ => 0)
        (.handle 1 ⟨.doRegistration, .registerRequest ⟨ascii "u", ascii "pw"⟩⟩,
          [.regResponse 1 1]) sv₁ ∧
      sv₁.Agrees (ascii "u") (ascii "pw") 1 := by
  let sv : Server (sqlDatabase memorySqlite) := first memorySqlite true fun _ => 0
  let m : RegRequest := ⟨ascii "u", ascii "pw"⟩
  have hopen : sv.database.isOpen = true := rfl
  have hlogin : double (ascii "u") = m.login := by decide
  have hpassword : double (ascii "pw") = m.password := by decide
  obtain ⟨sv₁, hstep, -⟩ := exists_register memorySqlite_lawful hopen 1 hlogin hpassword
    (by decide) (by decide) rfl
  have hord : sv.Orderly
      (.step (.handle 1 ⟨.doRegistration, .registerRequest m⟩) [.regResponse 1 1]) :=
    orderly_register (by decide) (by decide) (by decide)
  have hplain : Plain m.password := ⟨by decide, by decide, by decide⟩
  exact ⟨sv₁, hstep, (agrees_iff_plain memorySqlite_lawful (.nil _) ⟨hord, hstep⟩ (by decide)
    (.nil sv₁)).mpr ⟨hopen, hplain⟩⟩

/-- The password `''` is stored as `'`: its owner cannot log in. -/
theorem not_agrees_quotes :
    ¬ ∀ (clientIds : ConnectionId → Identifier) (before : List LifeEvent)
        (after : List (Event × List Output)) (sv sv₁ sv₂ : Server (sqlDatabase memorySqlite))
        (s : ConnectionId) (m : RegRequest) (c : Identifier),
      Run (LifeStep memorySqlite) (first memorySqlite true clientIds) before sv →
      Step (sqlDatabase memorySqlite) sv
        (.handle s ⟨.doRegistration, .registerRequest m⟩, [.regResponse s c]) sv₁ → c ≠ -1 →
      Run (Step (sqlDatabase memorySqlite)) sv₁ after sv₂ →
        sv₂.Agrees m.login m.password c := by
  intro h
  let sv : Server (sqlDatabase memorySqlite) := first memorySqlite true fun _ => 0
  let m : RegRequest := ⟨ascii "u", ascii "''"⟩
  have hopen : sv.database.isOpen = true := rfl
  have hlogin : double (ascii "u") = m.login := by decide
  have hpassword : double (ascii "'") = m.password := by decide
  obtain ⟨sv₁, hstep, hopen₁, haccounts, hlast⟩ := exists_register memorySqlite_lawful hopen 1
    hlogin hpassword (by decide) (by decide) rfl
  have hregistered : sv₁.Registered m.login m.password 1 (ascii "u") (ascii "'") := by
    refine ⟨⟨?_, ?_, ?_⟩, hopen₁, hlogin, hpassword, by decide, by decide, ?_⟩
    · rw [hlast]
      decide
    · rw [haccounts]
      decide
    · rw [haccounts]
      decide
    · rw [haccounts]
      decide
  have hagrees := h _ [] [] sv sv₁ sv₁ 1 m 1 (.nil sv) hstep (by decide) (.nil sv₁)
  have hplain := (hregistered.agrees_iff memorySqlite_lawful).mp hagrees
  exact hplain.quote_not_mem (by decide)

end Server

end AppChat.Connection
