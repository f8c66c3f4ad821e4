/-
  `Connection.Provenance`: where the messages of the server come from.

  A channel hands on what it has been given, what it has loaded from the file, and its own
  notices of those who join and leave.  So what anybody is handed has been read from some
  connection, by this process or an earlier one, or is the notice of a login that has been.
-/
import AppChat.Connection.Durability

set_option autoImplicit false

namespace AppChat.Connection

open Foundation Storage Serialize

/-- The login a request brings. -/
def PoolJob.login : PoolJob → Option Bytes
  | .request _ ⟨.doAutorisation, .inputRequest m⟩ => some m.login
  | .request _ ⟨.doRegistration, .registerRequest m⟩ => some m.login
  | _ => none

/-- What a `Connection` answers to `get_login`: the login of a request that has been read,
nothing before it logs in, and a word of its own when it has been freed. -/
inductive Named (asked : List PoolJob) : Bytes → Prop where
  | asked {login : Bytes} : login ∈ asked.filterMap PoolJob.login → Named asked login
  | fresh : Named asked []
  | freed : Named asked (ascii "unused")

/-- Where a message comes from. -/
inductive Sourced (asked : List PoolJob) : TextSendData → Prop where
  | text {data : TextSendData} : data ∈ asked.filterMap PoolJob.text → Sourced asked data
  | joined {login : Bytes} {roomId : Identifier} :
      Named asked login → Sourced asked (Channel.joinNotice login roomId)
  | left {login : Bytes} {roomId : Identifier} :
      Named asked login → Sourced asked (Channel.leaveNotice login roomId)

section Asked

variable {asked : List PoolJob} (more : List PoolJob)

theorem Named.append {login : Bytes} (h : Named asked login) : Named (asked ++ more) login := by
  cases h with
  | asked hmem =>
      refine .asked ?_
      rw [List.filterMap_append]
      exact List.mem_append_left _ hmem
  | fresh => exact .fresh
  | freed => exact .freed

theorem Sourced.append {data : TextSendData} (h : Sourced asked data) :
    Sourced (asked ++ more) data := by
  cases h with
  | text hmem =>
      refine .text ?_
      rw [List.filterMap_append]
      exact List.mem_append_left _ hmem
  | joined hnamed => exact .joined (hnamed.append more)
  | left hnamed => exact .left (hnamed.append more)

end Asked

/-! ## One process -/

section Process

variable {D : DatabaseOps} {asked : List PoolJob} {sv sv' : Server D} {e : Event}
  {out : List Output}

/-- The process knows nothing but what has been read. -/
structure Known (asked : List PoolJob) (sv : Server D) : Prop where
  names : ∀ s, Named asked (sv.connections s).login
  rooms : ∀ r ch, sv.chat.manager.channels.lookup r = some ch →
    ∀ data ∈ ch.historyRoom, Sourced asked data

theorem known_init (asked : List PoolJob) (db : D.State) (clientIds : ConnectionId → Identifier) :
    Known asked (Server.init db clientIds : Server D) where
  names _ := .fresh
  rooms _ _ hch := nomatch hch

theorem Known.append (h : Known asked sv) (more : List PoolJob) : Known (asked ++ more) sv where
  names s := (h.names s).append more
  rooms r ch hch data hdata := (h.rooms r ch hch data hdata).append more

/-- A connection gets a login. -/
theorem named_setMembers (sv : Server D) (h : ∀ t, Named asked (sv.connections t).login)
    (s : ConnectionId) {c : Members} (hc : Named asked c.login) (t : ConnectionId) :
    Named asked ((sv.setMembers s c).connections t).login := by
  by_cases ht : t = s
  · rw [ht, Server.setMembers_connections_self]
    exact hc
  · rw [Server.setMembers_connections_of_ne sv ht]
    exact h t

/-- Of a channel that one leaves nothing is handed out but the notice. -/
theorem sourced_leave {view : View} (hview : ∀ s, Named asked (view s).login) {ch : Channel}
    (hch : ∀ data ∈ ch.historyRoom, Sourced asked data) (c : Identifier) :
    (∀ data ∈ (ch.leave view c).1.historyRoom, Sourced asked data) ∧
      ∀ d ∈ (ch.leave view c).2, Sourced asked d.data := by
  cases hlookup : ch.subscribers.lookup c with
  | none =>
      rw [Channel.leave_of_notMem view (AList.lookup_eq_none.mp hlookup)]
      exact ⟨hch, fun d hd => nomatch hd⟩
  | some sub =>
      rw [Channel.leave_of_lookup view hlookup]
      refine ⟨?_, ?_⟩
      · intro data hdata
        rcases List.mem_append.mp hdata with hold | hnew
        · exact hch data hold
        · cases List.mem_singleton.mp hnew
          exact .left (hview sub)
      · intro d hd
        obtain ⟨other, -, rfl⟩ := List.mem_map.mp hd
        exact .left (hview sub)

theorem sourced_leaveRooms {view : View} (hview : ∀ s, Named asked (view s).login) (c : Identifier)
    (rooms : List Identifier) {channels : UnorderedMap Identifier Channel}
    (h : ∀ r ch, channels.lookup r = some ch → ∀ data ∈ ch.historyRoom, Sourced asked data) :
    ∀ d ∈ (ChannelsManager.leaveRooms view c rooms channels).2, Sourced asked d.data := by
  induction rooms generalizing channels with
  | nil => exact fun d hd => nomatch hd
  | cons room rooms ih =>
      intro d hd
      unfold ChannelsManager.leaveRooms at hd
      split at hd
      · exact ih h d hd
      · rename_i ch hch
        obtain ⟨hhistory, hhanded⟩ := sourced_leave hview (h room ch hch) c
        rcases List.mem_append.mp hd with hfirst | hrest
        · exact hhanded d hfirst
        · refine ih ?_ d hrest
          intro r ch' hch'
          rw [UnorderedMap.lookup_insert_eq] at hch'
          split at hch'
          · cases hch'
            exact hhistory
          · exact h r ch' hch'

/-- A connection is freed. -/
theorem Known.free (h : Known asked sv) (s : ConnectionId) :
    Known asked (sv.freeConnection s).1 ∧
      ∀ d, .message d ∈ (sv.freeConnection s).2 → Sourced asked d.data := by
  constructor
  · refine ⟨named_setMembers _ h.names s .freed, ?_⟩
    intro r ch hch
    have hch' := (ChannelsManager.lookup_leaveFromAllChannels _ _ _ r).symm.trans hch
    split at hch'
    · obtain ⟨old, hold, rfl⟩ := Option.map_eq_some_iff.mp hch'
      exact (sourced_leave h.names (h.rooms r old hold) _).1
    · exact h.rooms r ch hch'
  · intro d hd
    obtain ⟨d', hd', heq⟩ := List.mem_map.mp hd
    cases heq
    simp only [ChatState.leaveAll, ChannelsManager.leaveFromAllChannels] at hd'
    split at hd'
    · cases hd'
    · exact sourced_leaveRooms h.names _ _ h.rooms d hd'

/-- The messages among what a join hands out. -/
theorem message_of_mem_join {deliveries : List Delivery} {s : ConnectionId} {r : Identifier}
    {d : Delivery}
    (hd : .message d ∈ deliveries.map Output.message ++ [.joinRoomResponse s r true]) :
    d ∈ deliveries := by
  rcases List.mem_append.mp hd with hmem | hanswer
  · obtain ⟨d', hd', heq⟩ := List.mem_map.mp hmem
    cases heq
    exact hd'
  · cases List.mem_singleton.mp hanswer

/-- **One event.**  When its request has been read, and the histories loaded have been too,
the process still knows nothing else, and hands out nothing else. -/
theorem known_effect (heffect : Server.Effect sv e out sv') (h : Known asked sv)
    (hasked : ∀ s task, e = .handle s task → .request s task ∈ asked)
    (hload : ∀ r db' history, D.getHistory sv.chat.db r = (db', some history) →
      ∀ data ∈ history, Sourced asked data) :
    Known asked sv' ∧ ∀ d, .message d ∈ out → Sourced asked d.data := by
  have hanswer : ∀ {o : Output}, o.isResponse = true →
      ∀ d, .message d ∈ [o] → Sourced asked d.data := by
    intro o ho d hd
    cases List.mem_singleton.mp hd
    cases ho
  cases heffect with
  | @login s m clientId _ =>
      have hnamed : Named asked m.login := .asked (List.mem_filterMap.mpr ⟨_, hasked s _ rfl, rfl⟩)
      exact ⟨⟨named_setMembers _ h.names s hnamed, h.rooms⟩, hanswer rfl⟩
  | @register s m db _ _ =>
      have hnamed : Named asked m.login := .asked (List.mem_filterMap.mpr ⟨_, hasked s _ rfl, rfl⟩)
      exact ⟨⟨named_setMembers { sv with chat := { sv.chat with db := db }, lastId := sv.lastId + 1 }
        h.names s hnamed, h.rooms⟩, hanswer rfl⟩
  | @refuse s m _ =>
      have hnamed : Named asked m.login := .asked (List.mem_filterMap.mpr ⟨_, hasked s _ rfl, rfl⟩)
      exact ⟨⟨named_setMembers _ h.names s hnamed, h.rooms⟩, hanswer rfl⟩
  | @join s m result hjoin =>
      obtain ⟨ch, hch, hlookup, -, -, -, hdeliveries⟩ := ChannelsManager.join_cases hjoin
      have hhistory : ∀ data ∈ ch.historyRoom, Sourced asked data := by
        rcases hch with ⟨hroom, -⟩ | ⟨-, history, hloaded, rfl⟩
        · exact h.rooms _ ch hroom
        · exact hload _ _ history hloaded
      have hnotice : Sourced asked (Channel.joinNotice (sv.view s).login ch.channelId) :=
        .joined (h.names s)
      refine ⟨⟨named_setMembers { sv with chat := ⟨result.manager, result.db⟩ } h.names s (h.names s),
        ?_⟩, ?_⟩
      · intro r ch' hch'
        have hroom := (hlookup r).symm.trans hch'
        split at hroom
        · cases hroom
          intro data hdata
          rw [Channel.join_historyRoom] at hdata
          rcases List.mem_append.mp hdata with hold | hnew
          · exact hhistory data hold
          · cases List.mem_singleton.mp hnew
            exact hnotice
        · exact h.rooms r ch' hroom
      · intro d hd
        have hmem := message_of_mem_join hd
        rw [hdeliveries] at hmem
        rcases List.mem_append.mp hmem with hreplay | hnotified
        · obtain ⟨data, hdata, rfl⟩ := List.mem_map.mp hreplay
          exact hhistory data hdata
        · obtain ⟨sub, -, rfl⟩ := List.mem_map.mp hnotified
          exact hnotice
  | @text s m =>
      have htext : Sourced asked ⟨m.roomId, m.login, m.text⟩ :=
        .text (List.mem_filterMap.mpr ⟨_, hasked s _ rfl, rfl⟩)
      refine ⟨⟨h.names, ?_⟩, ?_⟩
      · intro r ch hch
        have hch' := (ChannelsManager.lookup_sendToChannel _ _ r).symm.trans hch
        split at hch'
        · obtain ⟨old, hold, rfl⟩ := Option.map_eq_some_iff.mp hch'
          intro data hdata
          rw [Channel.notification_historyRoom] at hdata
          rcases List.mem_append.mp hdata with hmem | hnew
          · exact h.rooms r old hold data hmem
          · cases List.mem_singleton.mp hnew
            exact htext
        · exact h.rooms r ch hch'
      · intro d hd
        obtain ⟨d', hd', heq⟩ := List.mem_map.mp hd
        cases heq
        rw [ChannelsManager.data_of_mem_sendToChannel hd']
        exact htext
  | @free s e hfrees => exact h.free s
  | ignore _ => exact ⟨h, fun d hd => nomatch hd⟩

end Process

/-! ## Processes one after the other -/

namespace Service

variable {E : Sqlite} {st st' : Service E}

/-- What is in the file has been read, what is in the pool has been read, and the process
knows nothing else. -/
structure Honest (st : Service E) : Prop where
  stored : ∃ saved, Stored st saved
  pool : ∀ s task, .request s task ∈ st.process.pool → .request s task ∈ st.asked
  known : Known st.asked st.process.server

/-- A process that loads a room gets texts that have been read. -/
theorem Honest.loads (hE : E.Lawful) (h : Honest st) {r : Identifier}
    {db' : (sqlDatabase E).State} {history : List TextSendData}
    (hload : (sqlDatabase E).getHistory st.process.server.chat.db r = (db', some history)) :
    ∀ data ∈ history, Sourced st.asked data := by
  obtain ⟨saved, hstored⟩ := h.stored
  obtain ⟨tv, hrefines, hhistory, -⟩ := hstored.tables
  have hloaded := hload.symm.trans (getHistory_of_holds hE hrefines.holds r)
  obtain ⟨-, hsome⟩ := Prod.mk.inj hloaded
  cases hsome
  intro data hdata
  have hsaved : data ∈ saved := hhistory ▸ List.mem_of_mem_filter hdata
  exact .text (hstored.texts.mem_iff.mpr (List.mem_append_right _ hsaved))

/-- The process handles a request of the pool, or frees a connection. -/
theorem Honest.effect (hE : E.Lawful) (h : Honest st) {e : Event} {out : List Output}
    {sv : Server (sqlDatabase E)} (hstep : Server.Step (sqlDatabase E) st.process.server (e, out) sv)
    (hpool : ∀ s task, e = .handle s task → .request s task ∈ st.process.pool) :
    Known st.asked sv ∧ ∀ d, .message d ∈ out → Sourced st.asked d.data :=
  known_effect (Server.effect_of_step hstep) h.known
    (fun s task he => h.pool s task (hpool s task he)) fun _ _ _ hload => h.loads hE hload

/-- What any event hands out has been read. -/
theorem Honest.outputs (hE : E.Lawful) (h : Honest st) {e : SocketEvent} {d : Delivery}
    (hd : .message d ∈ st.process.outputs e) : Sourced st.asked d.data := by
  have hfree : ∀ s, .message d ∈ (st.process.server.freeConnection s).2 → Sourced st.asked d.data :=
    fun s => (h.known.free s).2 d
  cases e with
  | run i =>
      simp only [WritingServer.outputs] at hd
      split at hd
      · rename_i s task hjob
        cases hhandle : st.process.server.handle s task with
        | none =>
            rw [hhandle] at hd
            cases hd
        | some result =>
            rw [hhandle] at hd
            refine (h.effect hE (e := .handle s task) hhandle ?_).2 d hd
            rintro _ _ ⟨⟩
            exact List.mem_of_getElem? hjob
      · cases hd
  | readFailed s => exact hfree s hd
  | fail s i => exact hfree s hd
  | _ => cases hd

theorem known_become {asked : List PoolJob} {ws : WritingServer (sqlDatabase E)}
    {sv : Server (sqlDatabase E)} {out : List Output} (h : Known asked sv) :
    Known asked (ws.become sv out).server := by
  rw [WritingServer.become_server]
  exact h

/-- Handing something out posts no request. -/
theorem request_mem_become {ws : WritingServer (sqlDatabase E)} {sv : Server (sqlDatabase E)}
    {out : List Output} {s : ConnectionId} {task : Task}
    (h : .request s task ∈ (ws.become sv out).pool) : .request s task ∈ ws.pool := by
  rw [WritingServer.become_pool] at h
  rcases List.mem_append.mp h with hold | hnew
  · exact hold
  · obtain ⟨o, -, ho⟩ := List.mem_map.mp hnew
    cases ho

theorem honest_socket (hE : E.Lawful) {e : SocketEvent} {process : WritingServer (sqlDatabase E)}
    (hstep : st.process.apply e = some process) (h : Honest st) :
    (∀ s task, .request s task ∈ process.pool → .request s task ∈ st.asked ++ e.request.toList) ∧
      Known (st.asked ++ e.request.toList) process.server := by
  have hold : ∀ s task, .request s task ∈ st.process.pool →
      .request s task ∈ st.asked ++ e.request.toList :=
    fun s task hmem => List.mem_append_left _ (h.pool s task hmem)
  cases e with
  | read s task =>
      cases hstep
      refine ⟨?_, h.known.append _⟩
      intro s' task' hmem
      rcases List.mem_append.mp hmem with hpool | hnew
      · exact hold s' task' hpool
      · exact List.mem_append_right _ hnew
  | readFailed s =>
      cases hstep
      exact ⟨fun s' task' hmem => hold s' task' (request_mem_become hmem),
        known_become ((h.known.free s).1.append _)⟩
  | run i =>
      obtain ⟨job, hjob, hrun⟩ := Option.bind_eq_some_iff.mp hstep
      cases job with
      | request s task =>
          obtain ⟨⟨sv, out⟩, hhandle, rfl⟩ := Option.map_eq_some_iff.mp hrun
          refine ⟨fun s' task' hmem =>
            hold s' task' (List.mem_of_mem_eraseIdx (request_mem_become hmem)), known_become ?_⟩
          refine (h.effect hE (e := .handle s task) hhandle ?_).1.append _
          rintro _ _ ⟨⟩
          exact List.mem_of_getElem? hjob
      | response o =>
          cases hrun
          exact ⟨fun s' task' hmem => hold s' task' (List.mem_of_mem_eraseIdx hmem),
            h.known.append _⟩
  | transmit s i n =>
      simp only [WritingServer.apply] at hstep
      split at hstep
      · obtain ⟨socket, -, rfl⟩ := Option.map_eq_some_iff.mp hstep
        exact ⟨hold, h.known.append _⟩
      · cases hstep
  | complete s i =>
      obtain ⟨link, -, rfl⟩ := Option.map_eq_some_iff.mp hstep
      exact ⟨hold, h.known.append _⟩
  | fail s i =>
      obtain ⟨socket, -, rfl⟩ := Option.map_eq_some_iff.mp hstep
      refine ⟨?_, known_become ((h.known.free s).1.append _)⟩
      intro s' task' hmem
      rw [WritingServer.freeConnection] at hmem
      have hpool := request_mem_become hmem
      exact hold s' task' hpool

theorem honest_step (hE : E.Lawful) {e : ServiceEvent} (hstep : Step st e st')
    (hplain : PlainRead st e) (h : Honest st) : Honest st' := by
  have hstored : ∃ saved, Stored st' saved := by
    obtain ⟨saved, hsaved⟩ := h.stored
    obtain ⟨more, hmore⟩ := stored_step hE hstep hsaved hplain
    exact ⟨_, hmore⟩
  cases e with
  | socket e =>
      obtain ⟨process, hprocess, rfl⟩ := Option.map_eq_some_iff.mp hstep
      obtain ⟨hpool, hknown⟩ := honest_socket hE hprocess h
      exact ⟨hstored, hpool, hknown⟩
  | restart clientIds =>
      cases hstep
      exact ⟨hstored, fun s task hmem => (nomatch hmem), known_init _ _ _⟩

theorem honest_start (hE : E.Lawful) (clientIds : ConnectionId → Identifier) :
    Honest (start E clientIds) where
  stored := ⟨[], stored_start hE clientIds⟩
  pool _ _ hmem := nomatch hmem
  known := known_init _ _ _

theorem honest_of_run (hE : E.Lawful) {clientIds : ConnectionId → Identifier}
    {es : List ServiceEvent} (h : Run (Guarded PlainRead Step) (start E clientIds) es st) :
    Honest st :=
  h.invariant (fun _ _ _ hstep hhonest => honest_step hE hstep.2 hstep.1 hhonest)
    (honest_start hE clientIds)

/-- **Nobody is handed what nobody has sent.**  In every state after any number of
processes, whatever happens next, each message handed out is a text that has been read from
some connection, with the login, the room and the text it was read with, or the notice that
somebody has joined or left its room under a login that has been read. -/
theorem sourced_of_mem_outputs (hE : E.Lawful) {clientIds : ConnectionId → Identifier}
    {es : List ServiceEvent} (h : Run (Guarded PlainRead Step) (start E clientIds) es st)
    {e : SocketEvent} {d : Delivery} (hd : .message d ∈ st.process.outputs e) :
    Sourced st.asked d.data :=
  (honest_of_run hE h).outputs hE hd

/-- The text that the first process has saved is handed to connection 2 by the second. -/
theorem sourced_of_mem_outputs_twoTexts : ∃ st : Service memorySqlite,
    Run (Guarded PlainRead Step) (start memorySqlite fun _ => 0) twoTexts st ∧
      .message ⟨2, ⟨5, ascii "u", ascii "a"⟩⟩ ∈ st.process.outputs (.run 0) ∧
      Sourced st.asked ⟨5, ascii "u", ascii "a"⟩ := by
  have hend : (twoTexts.foldlM (fun st e => if PlainRead st e then apply st e else none)
      (start memorySqlite fun _ => 0)).map (fun st =>
        decide (.message ⟨2, ⟨5, ascii "u", ascii "a"⟩⟩ ∈ st.process.outputs (.run 0))) =
      some true := by
    decide +kernel
  obtain ⟨st, hst, hmem⟩ := Option.map_eq_some_iff.mp hend
  have hrun : Run (Guarded PlainRead Step) (start memorySqlite fun _ => 0) twoTexts st :=
    Run.guarded_of_foldlM hst
  have hd := of_decide_eq_true hmem
  exact ⟨st, hrun, hd, sourced_of_mem_outputs memorySqlite_lawful hrun hd⟩

end Service

end AppChat.Connection
