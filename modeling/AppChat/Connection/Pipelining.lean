/-
  `Connection.Pipelining`: the requests of one connection, posted in the order they were
  sent and run in the order the pool comes to them.

  Two texts are stored in the order they are run.  A log in or a registration decides
  under which id and login a join is made.  Everything else may change places.
-/
import AppChat.Channel.History
import AppChat.Connection.Server
import AppChat.Foundation.Commutation
import AppChat.Storage.MemorySqlite

set_option autoImplicit false

namespace AppChat.Connection

open Foundation Storage Serialize

/-! ## What the requests of a connection act upon -/

/-- The identity of the connection, the counter, the tables, the rooms that have a channel,
who is subscribed in which of them under which id, and the rooms the index lists for an id,
in any order. -/
structure Standing where
  clientId : Identifier
  login : Bytes
  password : Bytes
  lastId : Identifier
  tables : Tables
  channels : Set Identifier
  subscriber : Identifier → Identifier → Option ConnectionId
  rooms : Identifier → Multiset Identifier

namespace Standing

/-- The connection is freed. -/
def free (v : Standing) : Standing :=
  { v with
    clientId := -1
    login := ascii "unused"
    password := ascii "unused"
    subscriber := fun r c =>
      if r ∈ v.rooms v.clientId ∧ c = v.clientId then none else v.subscriber r c
    rooms := Function.update v.rooms v.clientId 0 }

/-- The connection logs in. -/
def logIn (v : Standing) (m : InRequest) : Standing :=
  { v with
    login := m.login
    password := m.password
    clientId := (tableDatabase.checkClient v.tables m.login m.password).getD (-1) }

/-- The connection registers. -/
def register (v : Standing) (m : RegRequest) : Standing :=
  if tableDatabase.getLoginid v.tables m.login = -1 then
    { v with
      login := m.login
      password := m.password
      clientId := v.lastId + 1
      lastId := v.lastId + 1
      tables :=
        { v.tables with logins := v.tables.logins ++ [⟨m.login, v.lastId + 1, m.password⟩] } }
  else { v with login := m.login, password := m.password, clientId := -1 }

/-- The connection `s` joins a room. -/
def joinRoom (s : ConnectionId) (v : Standing) (roomId : Identifier) : Standing :=
  { v with
    channels := insert roomId v.channels
    subscriber := fun r c =>
      if r = roomId ∧ c = v.clientId then some ((v.subscriber r c).getD s) else v.subscriber r c
    rooms := Function.update v.rooms v.clientId (roomId ::ₘ v.rooms v.clientId) }

/-- A text is stored. -/
def saveText (v : Standing) (msg : TextSendData) : Standing :=
  { v with tables := tableDatabase.saveTextMsg v.tables msg }

/-- A request of the connection `s`. -/
def step (s : ConnectionId) (v : Standing) (task : Task) : Standing :=
  match task.handler, task.request with
  | .doAutorisation, .inputRequest m => v.logIn m
  | .doRegistration, .registerRequest m => v.register m
  | .doAutorisation, _ | .doRegistration, _ => v.free
  | .doJoinRoom, .joinRoomRequest m => joinRoom s v m.roomId
  | .doTextMsg, .textRequest m => v.saveText ⟨m.roomId, m.login, m.text⟩
  | .doJoinRoom, _ | .doTextMsg, _ => v

end Standing

/-! ## Which requests may change places -/

/-- The kinds of requests.  A log in, a registration and a request that frees the
connection all write its identity. -/
inductive TaskKind where
  | identity
  | join
  | text
  | nothing
  deriving DecidableEq, Repr

/-- The kind of a request. -/
def Task.kind (task : Task) : TaskKind :=
  match task.handler, task.request with
  | .doAutorisation, _ | .doRegistration, _ => .identity
  | .doJoinRoom, .joinRoomRequest _ => .join
  | .doTextMsg, .textRequest _ => .text
  | .doJoinRoom, _ | .doTextMsg, _ => .nothing

/-- The kinds that may change places. -/
def TaskKind.commutes : TaskKind → TaskKind → Bool
  | .text, .text => false
  | .identity, .identity | .identity, .join | .join, .identity => false
  | _, _ => true

/-- Two requests that may change places: they are the same, or of such kinds. -/
def Task.Commutes (t u : Task) : Prop := t = u ∨ t.kind.commutes u.kind = true

namespace Standing

variable {s : ConnectionId}

/-- A text changes places with all but texts. -/
theorem step_saveText (v : Standing) (msg : TextSendData) {u : Task} (hu : u.kind ≠ .text) :
    step s (v.saveText msg) u = (step s v u).saveText msg := by
  obtain ⟨handler, r⟩ := u
  cases handler with
  | doRegistration =>
      cases r with
      | registerRequest m =>
          show (v.saveText msg).register m = (v.register m).saveText msg
          unfold register
          have hid : tableDatabase.getLoginid (v.saveText msg).tables m.login =
              tableDatabase.getLoginid v.tables m.login := rfl
          rw [hid]
          split
          · rfl
          · rfl
      | _ => rfl
  | doTextMsg =>
      cases r with
      | textRequest m => exact absurd rfl hu
      | _ => rfl
  | doAutorisation => cases r <;> rfl
  | doJoinRoom => cases r <;> rfl

/-- Two joins change places. -/
theorem joinRoom_joinRoom (v : Standing) (r r' : Identifier) :
    joinRoom s (joinRoom s v r) r' = joinRoom s (joinRoom s v r') r := by
  have hsubscriber : (joinRoom s (joinRoom s v r) r').subscriber =
      (joinRoom s (joinRoom s v r') r).subscriber := by
    funext q c
    simp only [joinRoom]
    rcases eq_or_ne c v.clientId with rfl | hc
    · rcases eq_or_ne q r with rfl | hr
      · rcases eq_or_ne q r' with rfl | hr'
        · simp
        · simp [hr']
      · rcases eq_or_ne q r' with rfl | hr'
        · simp [hr]
        · simp [hr, hr']
    · simp [hc]
  have hrooms : (joinRoom s (joinRoom s v r) r').rooms = (joinRoom s (joinRoom s v r') r).rooms := by
    simp only [joinRoom, Function.update_self, Function.update_idem]
    rw [Multiset.cons_swap]
  have hchannels : (joinRoom s (joinRoom s v r) r').channels =
      (joinRoom s (joinRoom s v r') r).channels := Set.insert_comm r' r v.channels
  simp only [joinRoom] at hsubscriber hrooms hchannels ⊢
  rw [hsubscriber, hrooms, hchannels]

theorem exists_of_kind_text {t : Task} (h : t.kind = .text) :
    ∃ msg, ∀ v : Standing, step s v t = v.saveText msg := by
  obtain ⟨handler, r⟩ := t
  cases handler with
  | doTextMsg =>
      cases r with
      | textRequest m => exact ⟨_, fun _ => rfl⟩
      | _ => cases h
  | doJoinRoom => cases r <;> cases h
  | _ => cases h

theorem exists_of_kind_join {t : Task} (h : t.kind = .join) :
    ∃ roomId, ∀ v : Standing, step s v t = joinRoom s v roomId := by
  obtain ⟨handler, r⟩ := t
  cases handler with
  | doJoinRoom =>
      cases r with
      | joinRoomRequest m => exact ⟨_, fun _ => rfl⟩
      | _ => cases h
  | doTextMsg => cases r <;> cases h
  | _ => cases h

theorem step_of_kind_nothing {t : Task} (h : t.kind = .nothing) (v : Standing) :
    step s v t = v := by
  obtain ⟨handler, r⟩ := t
  cases handler with
  | doJoinRoom =>
      cases r with
      | joinRoomRequest m => cases h
      | _ => rfl
  | doTextMsg =>
      cases r with
      | textRequest m => cases h
      | _ => rfl
  | _ => cases h

theorem step_text_commutes (v : Standing) {t u : Task} (ht : t.kind = .text)
    (hu : u.kind ≠ .text) : step s (step s v t) u = step s (step s v u) t := by
  obtain ⟨msg, hmsg⟩ := exists_of_kind_text (s := s) ht
  rw [hmsg, hmsg, step_saveText v msg hu]

/-- Requests that may change places do. -/
theorem step_commutes (v : Standing) {t u : Task} (h : t.Commutes u) :
    step s (step s v t) u = step s (step s v u) t := by
  rcases h with rfl | hkinds
  · rfl
  · by_cases ht : t.kind = .nothing
    · rw [step_of_kind_nothing ht, step_of_kind_nothing ht]
    by_cases hu : u.kind = .nothing
    · rw [step_of_kind_nothing hu, step_of_kind_nothing hu]
    by_cases httext : t.kind = .text
    · refine step_text_commutes v httext ?_
      intro hutext
      rw [httext, hutext] at hkinds
      cases hkinds
    by_cases hutext : u.kind = .text
    · exact (step_text_commutes v hutext httext).symm
    -- what is left are log ins and joins, of which only two joins may change places
    have hjoins : t.kind = .join ∧ u.kind = .join := by
      cases htkind : t.kind <;> cases hukind : u.kind <;> simp_all [TaskKind.commutes]
    obtain ⟨r, hr⟩ := exists_of_kind_join (s := s) hjoins.1
    obtain ⟨r', hr'⟩ := exists_of_kind_join (s := s) hjoins.2
    rw [hr, hr', hr', hr, joinRoom_joinRoom]

end Standing

/-! ## The server does what the standing says -/

/-- The subscriber in a room under an id. -/
def subscriberAt (m : ChannelsManager) (r c : Identifier) : Option ConnectionId :=
  (m.channels.lookup r).bind fun ch => ch.subscribers.lookup c

/-- The rooms the index lists for an id. -/
def listedRooms (m : ChannelsManager) (c : Identifier) : List Identifier :=
  (m.clientInRooms.lookup c).getD []

section Rooms

variable (m : ChannelsManager)

theorem mem_channels_sendToChannel (msg : TextSendData) (r : Identifier) :
    r ∈ (m.sendToChannel msg).1.channels ↔ r ∈ m.channels := by
  rw [← AList.lookup_isSome, ChannelsManager.lookup_sendToChannel, ← AList.lookup_isSome]
  split
  · rw [Option.isSome_map]
  · rfl

theorem subscriberAt_sendToChannel (msg : TextSendData) (r c : Identifier) :
    subscriberAt (m.sendToChannel msg).1 r c = subscriberAt m r c := by
  rw [subscriberAt, ChannelsManager.lookup_sendToChannel]
  split
  · rw [Option.bind_map]
    rfl
  · rfl

theorem listedRooms_sendToChannel (msg : TextSendData) (c : Identifier) :
    listedRooms (m.sendToChannel msg).1 c = listedRooms m c := by
  rw [listedRooms, ChannelsManager.sendToChannel_clientInRooms]
  rfl

theorem mem_channels_leaveFromAllChannels (view : View) (c₀ r : Identifier) :
    r ∈ (m.leaveFromAllChannels view c₀).1.channels ↔ r ∈ m.channels := by
  rw [← AList.lookup_isSome, ChannelsManager.lookup_leaveFromAllChannels, ← AList.lookup_isSome]
  split
  · rw [Option.isSome_map]
  · rfl

theorem subscriberAt_leaveFromAllChannels (view : View) (c₀ r c : Identifier) :
    subscriberAt (m.leaveFromAllChannels view c₀).1 r c =
      if r ∈ listedRooms m c₀ ∧ c = c₀ then none else subscriberAt m r c := by
  rw [subscriberAt, ChannelsManager.lookup_leaveFromAllChannels, ← listedRooms]
  by_cases hr : r ∈ listedRooms m c₀
  · rw [if_pos hr]
    simp only [hr, true_and, subscriberAt]
    rcases m.channels.lookup r with _ | ch
    · simp
    · simp only [Option.map_some, Option.bind_some, Channel.leave_subscribers,
        UnorderedMap.lookup_erase_eq]
  · rw [if_neg hr, if_neg fun h => hr h.1]
    rfl

theorem listedRooms_leaveFromAllChannels (view : View) (c₀ c : Identifier) :
    listedRooms (m.leaveFromAllChannels view c₀).1 c = if c = c₀ then [] else listedRooms m c := by
  rw [listedRooms, ChannelsManager.leaveFromAllChannels_clientInRooms,
    UnorderedMap.lookup_erase_eq]
  split
  · rfl
  · rfl

variable {m} {D : DatabaseOps} {view : View} {s : ConnectionId} {roomId : Identifier} {db : D.State}
  {result : JoinResult D}

theorem mem_channels_join (h : m.join view s roomId db = some result) (r : Identifier) :
    r ∈ result.manager.channels ↔ r = roomId ∨ r ∈ m.channels := by
  obtain ⟨ch, -, hlookup, -⟩ := ChannelsManager.join_cases h
  rw [← AList.lookup_isSome, hlookup, ← AList.lookup_isSome]
  split
  · rename_i hr
    exact iff_of_true rfl (Or.inl hr)
  · rename_i hr
    exact (or_iff_right hr).symm

theorem subscriberAt_join (h : m.join view s roomId db = some result) (r c : Identifier) :
    subscriberAt result.manager r c =
      if r = roomId ∧ c = (view s).clientId then some ((subscriberAt m r c).getD s)
      else subscriberAt m r c := by
  obtain ⟨ch, hch, hlookup, -⟩ := ChannelsManager.join_cases h
  rw [subscriberAt, hlookup]
  rcases eq_or_ne r roomId with rfl | hr
  · have hold : subscriberAt m r c = ch.subscribers.lookup c := by
      rw [subscriberAt]
      rcases hch with ⟨hsome, -⟩ | ⟨hnone, -, -, rfl⟩
      · rw [hsome]
        rfl
      · rw [hnone]
        rfl
    rw [if_pos rfl, Option.bind_some, Channel.join_subscribers, UnorderedMap.lookup_tryEmplace, hold]
    simp only [true_and]
    split
    · rename_i hc
      rw [hc]
    · rfl
  · rw [if_neg hr, if_neg fun hboth => hr hboth.1]
    rfl

theorem listedRooms_join (h : m.join view s roomId db = some result) (c : Identifier) :
    listedRooms result.manager c =
      if c = (view s).clientId then listedRooms m c ++ [roomId] else listedRooms m c := by
  obtain ⟨-, -, -, hrooms, -⟩ := ChannelsManager.join_cases h
  rw [listedRooms, hrooms, ChannelsManager.lookup_addRoom]
  split
  · rename_i hc
    rw [hc]
    rfl
  · rfl

end Rooms

/-- The texts of a request are plain. -/
def PlainTask (task : Task) : Prop :=
  match task.handler, task.request with
  | .doAutorisation, .inputRequest m => Plain m.login
  | .doRegistration, .registerRequest m => Plain m.login ∧ Plain m.password
  | .doTextMsg, .textRequest m => Plain m.login ∧ Plain m.text
  | _, _ => True

/-- Every channel's history is, without notices, what the table has for its room. -/
def Described (m : ChannelsManager) (t : Tables) : Prop :=
  ∀ r ch, m.channels.lookup r = some ch → ∃ entries, HistoryLog.Describes entries r ch t

namespace Server

variable {E : Sqlite}

/-- The standing of the connection `s` in the server. -/
structure Stands (s : ConnectionId) (sv : Server (sqlDatabase E)) (v : Standing) : Prop where
  clientId : (sv.connections s).clientId = v.clientId
  login : (sv.connections s).login = v.login
  password : (sv.connections s).password = v.password
  lastId : sv.lastId = v.lastId
  tables : Holds (sv.chat.db : Database E) v.tables
  channels : ∀ r, r ∈ sv.chat.manager.channels ↔ r ∈ v.channels
  subscriber : ∀ r c, subscriberAt sv.chat.manager r c = v.subscriber r c
  rooms : ∀ c, (listedRooms sv.chat.manager c : Multiset Identifier) = v.rooms c
  described : Described sv.chat.manager v.tables

/-- Run a request of the connection. -/
def exec (s : ConnectionId) (sv : Server (sqlDatabase E)) (task : Task) :
    Option (Server (sqlDatabase E)) :=
  (sv.handle s task).map Prod.fst

variable {s : ConnectionId} {sv : Server (sqlDatabase E)} {v : Standing}

theorem exec_of_effect {task : Task} {out : List Output} {sv' : Server (sqlDatabase E)}
    (h : Effect sv (.handle s task) out sv') : sv.exec s task = some sv' := by
  have hhandle : sv.handle s task = some (sv', out) := step_of_effect h
  rw [exec, hhandle]
  rfl

namespace Stands

/-- New members. -/
theorem setMembers (h : Stands s sv v) (c : Members) :
    Stands s (sv.setMembers s c)
      { v with clientId := c.clientId, login := c.login, password := c.password } := by
  have hself := setMembers_connections_self sv s c
  exact ⟨congrArg Members.clientId hself, congrArg Members.login hself,
    congrArg Members.password hself, h.lastId, h.tables, h.channels, h.subscriber, h.rooms, h.described⟩

theorem logIn (hE : E.Lawful) (h : Stands s sv v) {m : InRequest} (hm : Plain m.login) :
    ∃ sv', sv.exec s ⟨.doAutorisation, .inputRequest m⟩ = some sv' ∧ Stands s sv' (v.logIn m) := by
  have hcheck : (sqlDatabase E).checkClient sv.chat.db m.login m.password =
      some ((tableDatabase.checkClient v.tables m.login m.password).getD (-1)) :=
    checkClient_of_holds hE h.tables hm m.password
  exact ⟨_, exec_of_effect (.login hcheck), h.setMembers _⟩

theorem register (hE : E.Lawful) (h : Stands s sv v) {m : RegRequest} (hlogin : Plain m.login)
    (hpassword : Plain m.password) :
    ∃ sv', sv.exec s ⟨.doRegistration, .registerRequest m⟩ = some sv' ∧
      Stands s sv' (v.register m) := by
  have hid : (sqlDatabase E).getLoginid sv.chat.db m.login =
      tableDatabase.getLoginid v.tables m.login := getLoginid_of_holds hE h.tables hlogin
  by_cases hnew : tableDatabase.getLoginid v.tables m.login = -1
  · obtain ⟨db', t', hadd, htables, hholds⟩ :=
      addLogins_of_holds hE h.tables (sv.lastId + 1) hlogin hpassword
    obtain rfl : { v.tables with
        logins := v.tables.logins ++ [⟨m.login, sv.lastId + 1, m.password⟩] } = t' :=
      Option.some.inj htables
    refine ⟨_, exec_of_effect (.register (hid.trans hnew) hadd), ?_⟩
    have hdescribed : Described sv.chat.manager { v.tables with
        logins := v.tables.logins ++ [⟨m.login, sv.lastId + 1, m.password⟩] } := by
      intro r ch hch
      obtain ⟨entries, hhistory, htable⟩ := h.described r ch hch
      exact ⟨entries, hhistory, htable⟩
    have hadded : Stands s
        { sv with chat := { sv.chat with db := db' }, lastId := sv.lastId + 1 }
        { v with
          lastId := sv.lastId + 1
          tables := { v.tables with
            logins := v.tables.logins ++ [⟨m.login, sv.lastId + 1, m.password⟩] } } :=
      ⟨h.clientId, h.login, h.password, rfl, hholds, h.channels, h.subscriber, h.rooms, hdescribed⟩
    rw [Standing.register, if_pos hnew, ← h.lastId]
    exact hadded.setMembers _
  · refine ⟨_, exec_of_effect (.refuse fun heq => hnew (hid.symm.trans heq)), ?_⟩
    rw [Standing.register, if_neg hnew]
    exact h.setMembers _

theorem saveText (hE : E.Lawful) (h : Stands s sv v) {m : TextRequest} (hlogin : Plain m.login)
    (htext : Plain m.text) :
    ∃ sv', sv.exec s ⟨.doTextMsg, .textRequest m⟩ = some sv' ∧
      Stands s sv' (v.saveText ⟨m.roomId, m.login, m.text⟩) := by
  let msg : TextSendData := ⟨m.roomId, m.login, m.text⟩
  have hlookup := ChannelsManager.lookup_sendToChannel sv.chat.manager msg
  refine ⟨_, exec_of_effect .text, h.clientId, h.login, h.password, h.lastId,
    saveTextMsg_of_holds hE h.tables hlogin htext, ?_, ?_, ?_, ?_⟩
  · intro r
    exact (mem_channels_sendToChannel sv.chat.manager msg r).trans (h.channels r)
  · intro r c
    exact (subscriberAt_sendToChannel sv.chat.manager msg r c).trans (h.subscriber r c)
  · intro c
    have hsame := listedRooms_sendToChannel sv.chat.manager msg c
    exact (congrArg _ hsame).trans (h.rooms c)
  · intro r ch hch
    have hch' := (hlookup r).symm.trans hch
    split at hch'
    · rename_i hr
      obtain ⟨old, hold, rfl⟩ := Option.map_eq_some_iff.mp hch'
      obtain ⟨entries, hentries⟩ := h.described r old hold
      exact ⟨_, hentries.text hr.symm⟩
    · rename_i hr
      obtain ⟨entries, hentries⟩ := h.described r ch hch'
      exact ⟨entries, hentries.otherText (Ne.symm hr)⟩

theorem free (h : Stands s sv v) : Stands s (sv.freeConnection s).1 v.free := by
  have hself := setMembers_connections_self
    { sv with chat := (sv.chat.leaveAll sv.view (sv.connections s).clientId).1 } s
    { clientId := -1, roomId := 0, login := ascii "unused", password := ascii "unused"
      busy := false, socketOpen := false }
  refine ⟨congrArg Members.clientId hself, congrArg Members.login hself,
    congrArg Members.password hself, h.lastId, h.tables, ?_, ?_, ?_, ?_⟩
  · intro r
    exact (mem_channels_leaveFromAllChannels sv.chat.manager sv.view
      (sv.connections s).clientId r).trans (h.channels r)
  · intro r c
    have hleft := subscriberAt_leaveFromAllChannels sv.chat.manager sv.view
      (sv.connections s).clientId r c
    have hlisted : r ∈ listedRooms sv.chat.manager v.clientId ↔ r ∈ v.rooms v.clientId := by
      rw [← h.rooms, Multiset.mem_coe]
    refine hleft.trans ?_
    rw [h.clientId, h.subscriber]
    simp only [hlisted, Standing.free]
  · intro c
    have hleft := listedRooms_leaveFromAllChannels sv.chat.manager sv.view
      (sv.connections s).clientId c
    refine (congrArg _ hleft).trans ?_
    rw [h.clientId]
    simp only [Standing.free, Function.update_apply]
    split
    · rfl
    · exact h.rooms c
  · intro r ch hch
    have hlookup := ChannelsManager.lookup_leaveFromAllChannels sv.view sv.chat.manager
      (sv.connections s).clientId r
    have hch' := hlookup.symm.trans hch
    split at hch'
    · obtain ⟨old, hold, rfl⟩ := Option.map_eq_some_iff.mp hch'
      obtain ⟨entries, hentries⟩ := h.described r old hold
      exact ⟨_, hentries.leave sv.view (sv.connections s).clientId⟩
    · exact h.described r ch hch'

theorem joinRoom (hE : E.Lawful) (h : Stands s sv v) (m : JoinRoomRequest) :
    ∃ sv', sv.exec s ⟨.doJoinRoom, .joinRoomRequest m⟩ = some sv' ∧
      Stands s sv' (v.joinRoom s m.roomId) := by
  have hload := getHistory_of_holds hE h.tables m.roomId
  obtain ⟨result, hjoin⟩ : ∃ result, sv.chat.manager.join sv.view s m.roomId sv.chat.db = some result := by
    refine Option.ne_none_iff_exists'.mp ?_
    rw [Ne, ChannelsManager.join_eq_none_iff]
    intro hnone
    rw [congrArg Prod.snd hload] at hnone
    cases hnone.2
  have hclientId : (sv.view s).clientId = v.clientId := h.clientId
  have hself := setMembers_connections_self
    { sv with chat := ⟨result.manager, result.db⟩ } s
    { sv.connections s with busy := true, roomId := m.roomId }
  obtain ⟨ch, hch, hlookup, -⟩ := ChannelsManager.join_cases hjoin
  -- loading a history leaves the database as it is
  have hdb : result.db = sv.chat.db := by
    rcases hch with ⟨-, hsame⟩ | ⟨-, history, hhistory, -⟩
    · exact hsame
    · exact congrArg Prod.fst (hhistory.symm.trans hload)
  refine ⟨_, exec_of_effect (.join hjoin), (congrArg Members.clientId hself).trans h.clientId,
    (congrArg Members.login hself).trans h.login,
    (congrArg Members.password hself).trans h.password, h.lastId, ?_, ?_, ?_, ?_, ?_⟩
  · show Holds (result.db : Database E) v.tables
    rw [hdb]
    exact h.tables
  · intro r
    refine (mem_channels_join hjoin r).trans ?_
    rw [Standing.joinRoom, Set.mem_insert_iff, h.channels]
  · intro r c
    refine (subscriberAt_join hjoin r c).trans ?_
    rw [hclientId, h.subscriber]
    rfl
  · intro c
    refine (congrArg _ (listedRooms_join hjoin c)).trans ?_
    rw [hclientId]
    simp only [Standing.joinRoom, Function.update_apply]
    split
    · rename_i hc
      rw [hc, ← h.rooms, Multiset.cons_coe, Multiset.coe_eq_coe]
      exact List.perm_append_singleton m.roomId _
    · exact h.rooms c
  · intro r ch' hr
    have hr' := (hlookup r).symm.trans hr
    split at hr'
    · rename_i heq
      subst heq
      cases hr'
      rcases hch with ⟨hsome, -⟩ | ⟨-, history, hhistory, rfl⟩
      · obtain ⟨entries, hentries⟩ := h.described m.roomId ch hsome
        exact ⟨_, hentries.notice rfl⟩
      · have hstored : history = v.tables.history.filter (·.roomId = m.roomId) :=
          Option.some.inj (congrArg Prod.snd (hhistory.symm.trans hload))
        subst hstored
        exact ⟨_, (HistoryLog.Describes.create m.roomId v.tables).notice rfl⟩
    · exact h.described r ch' hr'

/-- A request with plain texts does to the server what it does to the standing. -/
theorem step (hE : E.Lawful) (h : Stands s sv v) {task : Task} (hplain : PlainTask task) :
    ∃ sv', sv.exec s task = some sv' ∧ Stands s sv' (v.step s task) := by
  obtain ⟨handler, r⟩ := task
  have hfree : (Event.handle s ⟨handler, r⟩).frees = some s →
      ∃ sv', sv.exec s ⟨handler, r⟩ = some sv' ∧ Stands s sv' v.free :=
    fun hfrees => ⟨_, exec_of_effect (.free hfrees), h.free⟩
  cases handler with
  | doAutorisation =>
      cases r with
      | inputRequest m => exact h.logIn hE hplain
      | _ => exact hfree rfl
  | doRegistration =>
      cases r with
      | registerRequest m => exact h.register hE hplain.1 hplain.2
      | _ => exact hfree rfl
  | doJoinRoom =>
      cases r with
      | joinRoomRequest m => exact h.joinRoom hE m
      | _ => exact ⟨sv, exec_of_effect (.ignore rfl), h⟩
  | doTextMsg =>
      cases r with
      | textRequest m => exact h.saveText hE hplain.1 hplain.2
      | _ => exact ⟨sv, exec_of_effect (.ignore rfl), h⟩

end Stands

/-! ## The order of running and the order of sending -/

/-- The handle is open, the stored texts are plain, and the channels hold what is stored. -/
def Ready (sv : Server (sqlDatabase E)) : Prop :=
  ∃ t, Holds (sv.chat.db : Database E) t ∧ Described sv.chat.manager t

/-- A new process on a database with plain texts is ready. -/
theorem ready_init {db : Database E} {t : Tables} (h : Holds db t)
    (clientIds : ConnectionId → Identifier) :
    (Server.init db clientIds : Server (sqlDatabase E)).Ready := by
  refine ⟨t, h, ?_⟩
  intro r ch hch
  cases hch

theorem Ready.exists_stands (h : sv.Ready) (s : ConnectionId) : ∃ v, Stands s sv v := by
  obtain ⟨t, hholds, hdescribed⟩ := h
  let v : Standing :=
    { clientId := (sv.connections s).clientId
      login := (sv.connections s).login
      password := (sv.connections s).password
      lastId := sv.lastId
      tables := t
      channels := {r | r ∈ sv.chat.manager.channels}
      subscriber := subscriberAt sv.chat.manager
      rooms := fun c => listedRooms sv.chat.manager c }
  exact ⟨v, rfl, rfl, rfl, rfl, hholds, fun _ => Iff.rfl, fun _ _ => rfl, fun _ => rfl, hdescribed⟩

/-- Two servers agree about the connection: its identity, the rooms that have a channel, who
is subscribed in which of them, the rooms that are listed, the two tables, and the texts in
the history of every room. -/
structure Agree (s : ConnectionId) (sv sv' : Server (sqlDatabase E)) : Prop where
  clientId : (sv.connections s).clientId = (sv'.connections s).clientId
  login : (sv.connections s).login = (sv'.connections s).login
  password : (sv.connections s).password = (sv'.connections s).password
  channels : ∀ r, r ∈ sv.chat.manager.channels ↔ r ∈ sv'.chat.manager.channels
  subscribers : ∀ r c, subscriberAt sv.chat.manager r c = subscriberAt sv'.chat.manager r c
  rooms : ∀ c, (listedRooms sv.chat.manager c).Perm (listedRooms sv'.chat.manager c)
  logins : E.logins (sv.chat.db : Database E).store = E.logins (sv'.chat.db : Database E).store
  history : E.history (sv.chat.db : Database E).store = E.history (sv'.chat.db : Database E).store
  texts : ∀ r ch ch', sv.chat.manager.channels.lookup r = some ch →
    sv'.chat.manager.channels.lookup r = some ch' →
      ∃ entries entries', entries.map LogEntry.data = ch.historyRoom ∧
        entries'.map LogEntry.data = ch'.historyRoom ∧
        withoutNotices entries = withoutNotices entries' ∧
        (withoutNotices entries).map rowOf =
          (E.history (sv.chat.db : Database E).store).filter (·.roomId = r)

theorem Stands.agree {sv' : Server (sqlDatabase E)} (h : Stands s sv v) (h' : Stands s sv' v) :
    Agree s sv sv' where
  clientId := h.clientId.trans h'.clientId.symm
  login := h.login.trans h'.login.symm
  password := h.password.trans h'.password.symm
  channels r := (h.channels r).trans (h'.channels r).symm
  subscribers r c := (h.subscriber r c).trans (h'.subscriber r c).symm
  rooms c := Multiset.coe_eq_coe.mp ((h.rooms c).trans (h'.rooms c).symm)
  logins := h.tables.logins.trans h'.tables.logins.symm
  history := h.tables.history.trans h'.tables.history.symm
  texts := by
    intro r ch ch' hch hch'
    obtain ⟨entries, hhistory, htable⟩ := h.described r ch hch
    obtain ⟨entries', hhistory', htable'⟩ := h'.described r ch' hch'
    refine ⟨entries, entries', hhistory, hhistory', htable.trans htable'.symm, ?_⟩
    rw [htable, h.tables.history, List.filter_map]
    rfl

theorem abstracts (hE : E.Lawful) (s : ConnectionId) :
    Pipeline.Abstracts (exec s) (Stands (E := E) s) (Standing.step s) PlainTask Task.Commutes where
  exec _ _ _ hstands hplain := hstands.step hE hplain
  commutes v _ _ hcommutes := Standing.step_commutes v hcommutes

/-- **Pipelined requests.**  When the texts of the requests are plain, and a handler that
runs overtakes only requests it may change places with, then after all have run the server
agrees with the one that has run them in the order they were sent. -/
theorem agree_of_inOrder (hE : E.Lawful) {sv₀ : Server (sqlDatabase E)} (hready : sv₀.Ready)
    {s : ConnectionId} {es : List (PipelineEvent Task)}
    {p : Pipeline (Server (sqlDatabase E)) Task}
    (hrun : Run (Guarded (Pipeline.InOrder PlainTask Task.Commutes) (Pipeline.Step (exec s)))
      (Pipeline.start sv₀) es p) (hdone : p.pending = []) :
    ∃ sv', p.posted.foldlM (exec s) sv₀ = some sv' ∧ Agree s sv' p.state := by
  obtain ⟨v₀, hv₀⟩ := hready.exists_stands s
  obtain ⟨sv', v, hfold, hinOrder, hstate⟩ :=
    Pipeline.exists_foldlM_of_run (abstracts hE s) hv₀ hrun hdone
  exact ⟨sv', hfold, hinOrder.agree hstate⟩

/-- A new process on an empty database. -/
def emptyServer : Server (sqlDatabase memorySqlite) := Server.init ⟨true, ⟨[], []⟩⟩ fun _ => 0

theorem ready_emptyServer : emptyServer.Ready := by
  have hholds : Holds (⟨true, ⟨[], []⟩⟩ : Database memorySqlite) ⟨[], []⟩ := by
    refine ⟨rfl, rfl, rfl, ?_, ?_⟩
    · intro row hrow
      cases hrow
    · intro msg hmsg
      cases hmsg
  exact ready_init hholds _

/-- A log in and a text are sent, and the text is handled first. -/
theorem agree_of_inOrder_overtaken :
    let logIn : Task := ⟨.doAutorisation, .inputRequest ⟨ascii "u", ascii "p"⟩⟩
    let text : Task := ⟨.doTextMsg, .textRequest ⟨ascii "u", 5, ascii "hi"⟩⟩
    ∃ sv sv', Run (Pipeline.Step (exec 1)) (Pipeline.start emptyServer)
        [.post logIn, .post text, .run [logIn] text [], .run [] logIn []]
        ⟨sv, [], [logIn, text]⟩ ∧
      [logIn, text].foldlM (exec 1) emptyServer = some sv' ∧ Agree 1 sv' sv := by
  intro logIn text
  have hu : Plain (ascii "u") := ⟨by decide, by decide, by decide⟩
  have hhi : Plain (ascii "hi") := ⟨by decide, by decide, by decide⟩
  obtain ⟨v₀, hv₀⟩ := ready_emptyServer.exists_stands 1
  have hlogIn : PlainTask logIn := hu
  have htext : PlainTask text := ⟨hu, hhi⟩
  obtain ⟨sv₁, hsv₁, hv₁⟩ := hv₀.step memorySqlite_lawful htext
  obtain ⟨sv₂, hsv₂, hv₂⟩ := hv₁.step memorySqlite_lawful hlogIn
  have hrun : Run (Guarded (Pipeline.InOrder PlainTask Task.Commutes) (Pipeline.Step (exec 1)))
      (Pipeline.start emptyServer)
      [.post logIn, .post text, .run [logIn] text [], .run [] logIn []]
      ⟨sv₂, [], [logIn, text]⟩ := by
    refine .cons ⟨hlogIn, rfl⟩ (.cons ⟨htext, rfl⟩ (.cons ⟨?_, rfl, sv₁, hsv₁, rfl⟩
      (.cons ⟨?_, rfl, sv₂, hsv₂, rfl⟩ (.nil _))))
    · intro t ht
      rw [List.mem_singleton.mp ht]
      exact Or.inr rfl
    · intro t ht
      cases ht
  obtain ⟨sv', hfold, hagree⟩ :=
    agree_of_inOrder memorySqlite_lawful ready_emptyServer hrun rfl
  exact ⟨sv₂, sv', hrun.of_guarded, hfold, hagree⟩

/-- Two texts are sent to room 5, and the second is handled first. -/
theorem not_agree_texts :
    ¬ ∀ (E : Sqlite), E.Lawful → ∀ (sv₀ : Server (sqlDatabase E)), sv₀.Ready →
      ∀ (s : ConnectionId) (es : List (PipelineEvent Task))
        (p : Pipeline (Server (sqlDatabase E)) Task),
        Run (Pipeline.Step (exec s)) (Pipeline.start sv₀) es p → p.pending = [] →
          ∃ sv', p.posted.foldlM (exec s) sv₀ = some sv' ∧ Agree s sv' p.state := by
  intro h
  let a : Task := ⟨.doTextMsg, .textRequest ⟨ascii "u", 5, ascii "a"⟩⟩
  let b : Task := ⟨.doTextMsg, .textRequest ⟨ascii "u", 5, ascii "b"⟩⟩
  have hu : Plain (ascii "u") := ⟨by decide, by decide, by decide⟩
  have ha : PlainTask a := ⟨hu, by decide, by decide, by decide⟩
  have hb : PlainTask b := ⟨hu, by decide, by decide, by decide⟩
  obtain ⟨v₀, hv₀⟩ := ready_emptyServer.exists_stands 1
  obtain ⟨sv₁, hsv₁, hv₁⟩ := hv₀.step memorySqlite_lawful hb
  obtain ⟨sv₂, hsv₂, hv₂⟩ := hv₁.step memorySqlite_lawful ha
  obtain ⟨sv₃, hsv₃, hv₃⟩ := hv₀.step memorySqlite_lawful ha
  obtain ⟨sv₄, hsv₄, hv₄⟩ := hv₃.step memorySqlite_lawful hb
  have hrun : Run (Pipeline.Step (exec 1)) (Pipeline.start emptyServer)
      [.post a, .post b, .run [a] b [], .run [] a []] ⟨sv₂, [], [a, b]⟩ :=
    .cons rfl (.cons rfl (.cons ⟨rfl, sv₁, hsv₁, rfl⟩ (.cons ⟨rfl, sv₂, hsv₂, rfl⟩ (.nil _))))
  obtain ⟨sv', hfold, hagree⟩ :=
    h memorySqlite memorySqlite_lawful emptyServer ready_emptyServer 1 _ _ hrun rfl
  have hinOrder : [a, b].foldlM (exec 1) emptyServer = some sv₄ := by
    rw [List.foldlM_cons, hsv₃]
    show [b].foldlM (exec 1) sv₃ = some sv₄
    rw [List.foldlM_cons, hsv₄]
    rfl
  obtain rfl : sv₄ = sv' := Option.some.inj (hinOrder.symm.trans hfold)
  have hhistory := hagree.history
  rw [hv₄.tables.history, hv₂.tables.history] at hhistory
  let textA : TextSendData := ⟨5, ascii "u", ascii "a"⟩
  let textB : TextSendData := ⟨5, ascii "u", ascii "b"⟩
  have hrows : ((v₀.tables.history ++ [textA]) ++ [textB]).map rowOf =
      ((v₀.tables.history ++ [textB]) ++ [textA]).map rowOf := hhistory
  simp only [List.append_assoc, List.map_append, List.append_cancel_left_eq] at hrows
  exact absurd hrows (by decide)

end Server

end AppChat.Connection
