/-
  `Connection.Tables`: on plain texts the server over the class `Database` is the server
  over the tables.

  Every login, password and text that is sent becomes part of an SQL statement.  When none
  of them is empty or has a quote or a NUL byte, the statements mean what they say: the two
  servers hand out the same messages and responses in every run, and none of their handlers
  ends the process.
-/
import AppChat.Connection.Accounts

set_option autoImplicit false

namespace AppChat.Storage

open Foundation

instance (s : Bytes) : Decidable (Plain s) :=
  decidable_of_iff (s ≠ [] ∧ SqlText.quote ∉ s ∧ 0 ∉ s)
    ⟨fun h => ⟨h.1, h.2.1, h.2.2⟩, fun h => ⟨h.ne_nil, h.quote_not_mem, h.zero_not_mem⟩⟩

end AppChat.Storage

namespace AppChat.Connection

open Foundation Storage Serialize

/-! ## Plain requests -/

/-- The texts a handler puts into a statement are plain. -/
def Task.Plain : Task → Prop
  | ⟨.doAutorisation, .inputRequest m⟩ => Storage.Plain m.login
  | ⟨.doRegistration, .registerRequest m⟩ => Storage.Plain m.login ∧ Storage.Plain m.password
  | ⟨.doTextMsg, .textRequest m⟩ => Storage.Plain m.login ∧ Storage.Plain m.text
  | _ => True

instance (task : Task) : Decidable task.Plain :=
  match task with
  | ⟨.doAutorisation, r⟩ =>
      match r with
      | .inputRequest _ => inferInstanceAs (Decidable (Storage.Plain _))
      | .msgNotSet | .registerRequest _ | .joinRoomRequest _ | .textRequest _ =>
          inferInstanceAs (Decidable True)
  | ⟨.doRegistration, r⟩ =>
      match r with
      | .registerRequest _ => inferInstanceAs (Decidable (_ ∧ _))
      | .msgNotSet | .inputRequest _ | .joinRoomRequest _ | .textRequest _ =>
          inferInstanceAs (Decidable True)
  | ⟨.doJoinRoom, _⟩ => inferInstanceAs (Decidable True)
  | ⟨.doTextMsg, r⟩ =>
      match r with
      | .textRequest _ => inferInstanceAs (Decidable (_ ∧ _))
      | .msgNotSet | .inputRequest _ | .registerRequest _ | .joinRoomRequest _ =>
          inferInstanceAs (Decidable True)

/-- The request that is handled is plain. -/
def Event.Plain : Event → Prop
  | .handle _ task => task.Plain
  | .free _ => True

/-! ## The two servers -/

section Refines

variable {E : Sqlite}

/-- The servers differ in their databases only, and these hold the same. -/
structure Refines (sv : Server (sqlDatabase E)) (tv : Server tableDatabase) : Prop where
  manager : sv.chat.manager = tv.chat.manager
  holds : @Holds E sv.chat.db tv.chat.db
  lastId : sv.lastId = tv.lastId
  connections : sv.connections = tv.connections

theorem Refines.init {db : Database E} {t : Tables} (h : Holds db t)
    (clientIds : ConnectionId → Identifier) :
    Refines (Server.init db clientIds : Server (sqlDatabase E)) (Server.init t clientIds) where
  manager := rfl
  holds := h
  lastId := rfl
  connections := rfl

/-- Both return, hand out the same, and differ in their databases only. -/
def SameStep (result : Option (Server (sqlDatabase E) × List Output))
    (result' : Option (Server tableDatabase × List Output)) : Prop :=
  ∃ sv tv out, result = some (sv, out) ∧ result' = some (tv, out) ∧ Refines sv tv

variable {sv : Server (sqlDatabase E)} {tv : Server tableDatabase}

theorem sameStep_freeConnection (h : Refines sv tv) (s : ConnectionId) :
    SameStep (some (sv.freeConnection s)) (some (tv.freeConnection s)) := by
  obtain ⟨⟨m, db⟩, lastId, connections⟩ := sv
  obtain ⟨⟨m', t⟩, lastId', connections'⟩ := tv
  obtain ⟨rfl, hholds, rfl, rfl⟩ := h
  exact ⟨_, _, _, rfl, rfl, rfl, hholds, rfl, rfl⟩

section Handlers

variable (hE : E.Lawful)
include hE

theorem sameStep_doAutorisation (h : Refines sv tv) (s : ConnectionId) {r : Request}
    (hplain : (⟨.doAutorisation, r⟩ : Task).Plain) :
    SameStep (sv.doAutorisation s r) (tv.doAutorisation s r) := by
  cases r with
  | inputRequest m =>
      have hcheck := checkClient_of_holds hE h.holds hplain m.password
      obtain ⟨⟨manager, db⟩, lastId, connections⟩ := sv
      obtain ⟨⟨manager', t⟩, lastId', connections'⟩ := tv
      obtain ⟨rfl, hholds, rfl, rfl⟩ := h
      obtain ⟨clientId, hclient⟩ : ∃ clientId,
          tableDatabase.checkClient t m.login m.password = some clientId := ⟨_, rfl⟩
      simp only [Server.doAutorisation, hcheck, hclient]
      exact ⟨_, _, _, rfl, rfl, rfl, hholds, rfl, rfl⟩
  | _ => exact sameStep_freeConnection h s

theorem sameStep_doRegistration (h : Refines sv tv) (s : ConnectionId) {r : Request}
    (hplain : (⟨.doRegistration, r⟩ : Task).Plain) :
    SameStep (sv.doRegistration s r) (tv.doRegistration s r) := by
  cases r with
  | registerRequest m =>
      obtain ⟨hlogin, hpassword⟩ := hplain
      have hfound := getLoginid_of_holds hE h.holds hlogin
      obtain ⟨⟨manager, db⟩, lastId, connections⟩ := sv
      obtain ⟨⟨manager', t⟩, lastId', connections'⟩ := tv
      obtain ⟨rfl, hholds, rfl, rfl⟩ := h
      by_cases hid : tableDatabase.getLoginid t m.login = -1
      · obtain ⟨db', t', hadd, hadd', hholds'⟩ :=
          addLogins_of_holds hE hholds (lastId + 1) hlogin hpassword
        simp only [Server.doRegistration, hfound, hid, if_true, hadd, hadd']
        exact ⟨_, _, _, rfl, rfl, rfl, hholds', rfl, rfl⟩
      · simp only [Server.doRegistration, hfound, if_neg hid]
        exact ⟨_, _, _, rfl, rfl, rfl, hholds, rfl, rfl⟩
  | _ => exact sameStep_freeConnection h s

/-- A join loads the same history from both. -/
theorem join_of_holds {db : Database E} {t : Tables} (h : Holds db t) (view : View)
    (m : ChannelsManager) (s : ConnectionId) (roomId : Identifier) :
    ∃ result : JoinResult tableDatabase,
      m.join view s roomId t = some result ∧ result.db = t ∧
      @ChannelsManager.join (sqlDatabase E) view m s roomId db =
        some ⟨result.manager, db, result.flag, result.deliveries⟩ := by
  unfold ChannelsManager.join
  cases hroom : m.channels.lookup roomId with
  | some ch => exact ⟨_, rfl, rfl, rfl⟩
  | none =>
      have hload : (sqlDatabase E).getHistory db roomId =
          (db, some (t.history.filter (·.roomId = roomId))) := getHistory_of_holds hE h roomId
      have hload' : tableDatabase.getHistory t roomId =
          (t, some (t.history.filter (·.roomId = roomId))) := rfl
      simp only [Channel.create, hload, hload', Option.map_some,
        UnorderedMap.emplace_of_lookup_none hroom, if_true]
      exact ⟨_, rfl, rfl, rfl⟩

theorem sameStep_doJoinRoom (h : Refines sv tv) (s : ConnectionId) (r : Request) :
    SameStep (sv.doJoinRoom s r) (tv.doJoinRoom s r) := by
  cases r with
  | joinRoomRequest m =>
      obtain ⟨⟨manager, db⟩, lastId, connections⟩ := sv
      obtain ⟨⟨manager', t⟩, lastId', connections'⟩ := tv
      obtain ⟨rfl, hholds, rfl, rfl⟩ := h
      let view : View := fun s => ⟨(connections s).clientId, (connections s).login⟩
      have hview : (⟨⟨manager, db⟩, lastId, connections⟩ : Server (sqlDatabase E)).view = view := rfl
      have hview' : (⟨⟨manager, t⟩, lastId, connections⟩ : Server tableDatabase).view = view := rfl
      obtain ⟨⟨joined, t', flag, deliveries⟩, hjoin, ht, hjoin'⟩ :=
        join_of_holds hE hholds view manager s m.roomId
      obtain rfl : t' = t := ht
      have hjoined : manager.join view s m.roomId t' = some ⟨joined, t', flag, deliveries⟩ := hjoin
      simp only [Server.doJoinRoom, ChatState.join, hview, hview', hjoined, hjoin']
      exact ⟨_, _, _, rfl, rfl, rfl, hholds, rfl, rfl⟩
  | _ => exact ⟨sv, tv, [], rfl, rfl, h⟩

theorem sameStep_doTextMsg (h : Refines sv tv) {r : Request}
    (hplain : (⟨.doTextMsg, r⟩ : Task).Plain) : SameStep (sv.doTextMsg r) (tv.doTextMsg r) := by
  cases r with
  | textRequest m =>
      have hsaved := @saveTextMsg_of_holds E hE _ _ h.holds ⟨m.roomId, m.login, m.text⟩ hplain.1 hplain.2
      obtain ⟨⟨manager, db⟩, lastId, connections⟩ := sv
      obtain ⟨⟨manager', t⟩, lastId', connections'⟩ := tv
      obtain ⟨rfl, hholds, rfl, rfl⟩ := h
      exact ⟨_, _, _, rfl, rfl, rfl, hsaved, rfl, rfl⟩
  | _ => exact ⟨sv, tv, [], rfl, rfl, h⟩

/-- A plain event is handled by both, in the same way. -/
theorem sameStep_apply (h : Refines sv tv) {e : Event} (hplain : e.Plain) :
    SameStep (sv.apply e) (tv.apply e) := by
  cases e with
  | handle s task =>
      obtain ⟨handler, r⟩ := task
      cases handler with
      | doAutorisation => exact sameStep_doAutorisation hE h s hplain
      | doRegistration => exact sameStep_doRegistration hE h s hplain
      | doJoinRoom => exact sameStep_doJoinRoom hE h s r
      | doTextMsg => exact sameStep_doTextMsg hE h hplain
  | free s => exact sameStep_freeConnection h s

end Handlers

/-! ## Lives of the two servers -/

/-- A step of the server over the tables, or the start of the next one on the same
tables. -/
def TableLifeStep (tv : Server tableDatabase) : LifeEvent → Server tableDatabase → Prop
  | .step e out, tv' => Server.Step tableDatabase tv (e, out) tv'
  | .restart _ clientIds, tv' => tv' = Server.init tv.chat.db clientIds

/-- The event is plain, and every process opens its handle. -/
def LifeEvent.Plain : LifeEvent → Prop
  | .step e _ => e.Plain
  | .restart opened _ => opened = true

theorem refines_lifeStep (hE : E.Lawful) (h : Refines sv tv) {e : LifeEvent} (hplain : e.Plain)
    {sv' : Server (sqlDatabase E)} (hstep : Server.LifeStep E sv e sv') :
    ∃ tv', TableLifeStep tv e tv' ∧ Refines sv' tv' := by
  cases e with
  | step event out =>
      obtain ⟨sv₁, tv₁, out₁, hsv, htv, hrefines⟩ := sameStep_apply hE h hplain
      obtain ⟨rfl, rfl⟩ := Prod.mk.inj (Option.some.inj (hsv.symm.trans hstep))
      exact ⟨tv₁, htv, hrefines⟩
  | restart opened clientIds =>
      obtain rfl := hplain
      obtain rfl := hstep
      have hopen : Holds (⟨true, sv.database.store⟩ : Database E) tv.chat.db :=
        ⟨rfl, h.holds.logins, h.holds.history, h.holds.plain_logins, h.holds.plain_history⟩
      exact ⟨_, rfl, .init hopen clientIds⟩

theorem abstracts_lifeStep (hE : E.Lawful) (h : Refines sv tv) {e : LifeEvent} (hplain : e.Plain)
    {tv' : Server tableDatabase} (hstep : TableLifeStep tv e tv') :
    ∃ sv', Server.LifeStep E sv e sv' ∧ Refines sv' tv' := by
  cases e with
  | step event out =>
      obtain ⟨sv₁, tv₁, out₁, hsv, htv, hrefines⟩ := sameStep_apply hE h hplain
      obtain ⟨rfl, rfl⟩ := Prod.mk.inj (Option.some.inj (htv.symm.trans hstep))
      exact ⟨sv₁, hsv, hrefines⟩
  | restart opened clientIds =>
      obtain ⟨sv₁, hrestart⟩ : ∃ sv₁, Server.LifeStep E sv (.restart opened clientIds) sv₁ := ⟨_, rfl⟩
      obtain ⟨tv₁, hrestart', hrefines⟩ := refines_lifeStep hE h hplain hrestart
      have hsame : tv₁ = tv' := hrestart'.trans hstep.symm
      exact ⟨sv₁, hrestart, hsame ▸ hrefines⟩

theorem refines_of_run (hE : E.Lawful) (h : Refines sv tv) {events : List LifeEvent}
    (hplain : ∀ e ∈ events, e.Plain) {sv' : Server (sqlDatabase E)}
    (hrun : Run (Server.LifeStep E) sv events sv') :
    ∃ tv', Run TableLifeStep tv events tv' ∧ Refines sv' tv' := by
  induction hrun generalizing tv with
  | nil sv => exact ⟨tv, .nil tv, h⟩
  | cons hstep _ ih =>
      obtain ⟨he, hrest⟩ := List.forall_mem_cons.mp hplain
      obtain ⟨tv₁, hone, hrefines⟩ := refines_lifeStep hE h he hstep
      obtain ⟨tv', htail, hend⟩ := ih hrefines hrest
      exact ⟨tv', .cons hone htail, hend⟩

theorem abstracts_of_run (hE : E.Lawful) (h : Refines sv tv) {events : List LifeEvent}
    (hplain : ∀ e ∈ events, e.Plain) {tv' : Server tableDatabase}
    (hrun : Run TableLifeStep tv events tv') :
    ∃ sv', Run (Server.LifeStep E) sv events sv' ∧ Refines sv' tv' := by
  induction hrun generalizing sv with
  | nil tv => exact ⟨sv, .nil sv, h⟩
  | cons hstep _ ih =>
      obtain ⟨he, hrest⟩ := List.forall_mem_cons.mp hplain
      obtain ⟨sv₁, hone, hrefines⟩ := abstracts_lifeStep hE h he hstep
      obtain ⟨sv', htail, hend⟩ := ih hrefines hrest
      exact ⟨sv', .cons hone htail, hend⟩

theorem refines_first (hE : E.Lawful) (clientIds : ConnectionId → Identifier) :
    Refines (Server.first E true clientIds) (Server.init ⟨[], []⟩ clientIds) := by
  refine .init ⟨rfl, hE.logins_empty, hE.history_empty, ?_, ?_⟩ clientIds
  · intro row hrow
    cases hrow
  · intro msg hmsg
    cases hmsg

/-- **Plain texts hide the database.**  From an empty file on, over any number of processes,
the plain events that the server over SQLite can go through and the messages and responses
it hands out are those of the server over the tables; and no plain event ends a process. -/
theorem plain_run_iff_tables (hE : E.Lawful) {clientIds : ConnectionId → Identifier}
    {events : List LifeEvent} (hplain : ∀ e ∈ events, e.Plain) :
    ((∃ sv, Run (Server.LifeStep E) (Server.first E true clientIds) events sv) ↔
        ∃ tv, Run TableLifeStep (Server.init ⟨[], []⟩ clientIds) events tv) ∧
      ∀ sv, Run (Server.LifeStep E) (Server.first E true clientIds) events sv →
        ∀ e : Event, e.Plain → ∃ out sv', Server.LifeStep E sv (.step e out) sv' := by
  have hfirst := refines_first hE clientIds
  refine ⟨⟨?_, ?_⟩, ?_⟩
  · rintro ⟨sv, hrun⟩
    obtain ⟨tv, htables, -⟩ := refines_of_run hE hfirst hplain hrun
    exact ⟨tv, htables⟩
  · rintro ⟨tv, htables⟩
    obtain ⟨sv, hrun, -⟩ := abstracts_of_run hE hfirst hplain htables
    exact ⟨sv, hrun⟩
  · intro sv hrun e he
    obtain ⟨tv, -, hrefines⟩ := refines_of_run hE hfirst hplain hrun
    obtain ⟨sv', -, out, hsv, -, -⟩ := sameStep_apply hE hrefines he
    exact ⟨out, sv', hsv⟩

/-- An account outlives the process that has made it. -/
theorem plain_run_iff_tables_account :
    let register : Event := .handle 1 ⟨.doRegistration, .registerRequest ⟨ascii "u", ascii "pw"⟩⟩
    let logIn : Event := .handle 2 ⟨.doAutorisation, .inputRequest ⟨ascii "u", ascii "pw"⟩⟩
    let events : List LifeEvent :=
      [.step register [.regResponse 1 1], .restart true fun _ => 0, .step logIn [.autoResponse 2 1]]
    ∃ sv, Run (Server.LifeStep memorySqlite) (Server.first memorySqlite true fun _ => 0) events sv := by
  intro register logIn events
  have hplain : ∀ e ∈ events, e.Plain := by
    intro e he
    simp only [events, List.mem_cons, List.not_mem_nil, or_false] at he
    rcases he with rfl | rfl | rfl
    · show Plain (ascii "u") ∧ Plain (ascii "pw")
      decide
    · rfl
    · show Plain (ascii "u")
      decide
  let tv : Server tableDatabase := Server.init ⟨[], []⟩ fun _ => 0
  have hregister : Server.Step tableDatabase tv (register, [.regResponse 1 1]) _ :=
    Server.step_of_effect (.register (by decide) rfl)
  let tv' : Server tableDatabase := Server.init ⟨[⟨ascii "u", 1, ascii "pw"⟩], []⟩ fun _ => 0
  have hlogIn : Server.Step tableDatabase tv' (logIn, [.autoResponse 2 1]) _ :=
    Server.step_of_effect (.login (by decide))
  exact (plain_run_iff_tables memorySqlite_lawful hplain).1.mpr
    ⟨_, .cons hregister (.cons rfl (.single hlogIn))⟩

end Refines

end AppChat.Connection
