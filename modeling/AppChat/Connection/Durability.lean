/-
  `Connection.Durability`: what is left of the texts when a process ends.

  A text waits in the pool until its handler hands it out and saves it.  A process may end
  at any time; the jobs in its pool are gone then, its sockets and its rooms too, and the
  next process finds the file.  Every text is saved once or was in the pool of a process
  that has ended, and whoever joins a room is handed all that has been saved for it.
-/
import AppChat.Connection.Answers
import AppChat.Connection.Audience
import AppChat.Connection.Tables
import AppChat.Storage.HistoryFaithful

set_option autoImplicit false

namespace AppChat.Connection

open Foundation Storage Serialize

/-! ## The server over the tables -/

/-- The text of a request in the pool. -/
def PoolJob.text : PoolJob → Option TextSendData
  | .request _ ⟨.doTextMsg, .textRequest m⟩ => some ⟨m.roomId, m.login, m.text⟩
  | _ => none

/-- The text an event saves. -/
def Event.text : Event → Option TextSendData
  | .handle s task => (PoolJob.request s task).text
  | .free _ => none

/-- Every room has in memory the texts that have been saved for it. -/
def Replays (tv : Server tableDatabase) : Prop :=
  ∀ r ch, tv.chat.manager.channels.lookup r = some ch →
    (tv.chat.db.history.filter (·.roomId = r)).Sublist ch.historyRoom

section Tables

variable {tv tv' : Server tableDatabase} {e : Event} {out : List Output}

theorem text_eq_none (h : e.frees ≠ none ∨ e.ignored = true) : e.text = none := by
  obtain ⟨s, ⟨handler, r⟩⟩ | s := e
  · cases handler <;> cases r <;> first | rfl | simp [Event.frees, Event.ignored] at h
  · rfl

/-- An event saves its text and nothing else. -/
theorem history_of_effect (h : Server.Effect tv e out tv') :
    tv'.chat.db.history = tv.chat.db.history ++ e.text.toList := by
  cases h with
  | login _ => exact (List.append_nil _).symm
  | register _ hadd =>
      cases hadd
      exact (List.append_nil _).symm
  | refuse _ => exact (List.append_nil _).symm
  | @join s m result hjoin =>
      obtain ⟨ch, hch, -⟩ := ChannelsManager.join_cases hjoin
      have hdb : result.db = tv.chat.db := by
        rcases hch with ⟨-, hdb⟩ | ⟨-, history, hload, -⟩
        · exact hdb
        · exact (congrArg Prod.fst hload).symm
      show result.db.history = _
      rw [hdb]
      exact (List.append_nil _).symm
  | text => rfl
  | free hfrees =>
      rw [text_eq_none (Or.inl (by rw [hfrees]; exact Option.some_ne_none _))]
      exact (List.append_nil _).symm
  | ignore hignored =>
      rw [text_eq_none (Or.inr hignored)]
      exact (List.append_nil _).symm

/-- The channel that lets a subscriber in has all that has been saved. -/
theorem sublist_of_join {s : ConnectionId} {r : Identifier} {result : JoinResult tableDatabase}
    (h : Replays tv) (hjoin : tv.chat.manager.join tv.view s r tv.chat.db = some result) :
    ∃ ch : Channel, (tv.chat.db.history.filter (·.roomId = r)).Sublist ch.historyRoom ∧
      result.db = tv.chat.db ∧
      (∀ r', result.manager.channels.lookup r' =
        if r' = r then some (ch.join tv.view s).1 else tv.chat.manager.channels.lookup r') ∧
      result.deliveries = (ch.join tv.view s).2 := by
  obtain ⟨ch, hch, hlookup, -, -, -, hdeliveries⟩ := ChannelsManager.join_cases hjoin
  rcases hch with ⟨hroom, hdb⟩ | ⟨-, history, hload, rfl⟩
  · exact ⟨ch, h r ch hroom, hdb, hlookup, hdeliveries⟩
  · have hloaded : (tv.chat.db, some (tv.chat.db.history.filter (·.roomId = r))) =
        (result.db, some history) := hload
    obtain ⟨hdb, hhistory⟩ := Prod.mk.inj hloaded
    cases hhistory
    exact ⟨_, List.Sublist.refl _, hdb.symm, hlookup, hdeliveries⟩

theorem replays_effect (heffect : Server.Effect tv e out tv') (h : Replays tv) : Replays tv' := by
  cases heffect with
  | login _ => exact h
  | register _ hadd =>
      cases hadd
      exact h
  | refuse _ => exact h
  | join hjoin =>
      obtain ⟨ch, hsub, hdb, hlookup, -⟩ := sublist_of_join h hjoin
      intro r' ch' hch'
      rw [Server.setMembers_chat, hlookup] at hch'
      rw [Server.setMembers_chat, hdb]
      split at hch'
      · rename_i hr
        cases hch'
        rw [hr]
        exact hsub.trans (List.sublist_append_left _ _)
      · exact h r' ch' hch'
  | @text s m =>
      intro r ch hch
      show ((tv.chat.db.history ++ [_]).filter _).Sublist _
      have hch' := (ChannelsManager.lookup_sendToChannel _ _ r).symm.trans hch
      rw [List.filter_append]
      split at hch'
      · rename_i hr
        obtain ⟨old, hold, rfl⟩ := Option.map_eq_some_iff.mp hch'
        exact (h r old hold).append List.filter_sublist
      · rename_i hr
        have hnone : [(⟨m.roomId, m.login, m.text⟩ : TextSendData)].filter (·.roomId = r) = [] := by
          simp [Ne.symm hr]
        rw [hnone, List.append_nil]
        exact h r ch hch'
  | @free s e hfrees =>
      intro r ch hch
      have hch' := (ChannelsManager.lookup_leaveFromAllChannels _ _ _ r).symm.trans hch
      split at hch'
      · obtain ⟨old, hold, rfl⟩ := Option.map_eq_some_iff.mp hch'
        refine (h r old hold).trans ?_
        unfold Channel.leave
        split
        · exact List.Sublist.refl _
        · exact List.sublist_append_left _ _
      · exact h r ch hch'
  | ignore _ => exact h

end Tables

/-! ## Processes one after the other -/

/-- The process, the requests all processes have read, and those that were in the pool of a
process when it ended. -/
structure Service (E : Sqlite) where
  process : WritingServer (sqlDatabase E)
  asked : List PoolJob := []
  lost : List PoolJob := []

/-- An event of the process, or its end and the start of the next one. -/
inductive ServiceEvent where
  | socket (e : SocketEvent)
  | restart (clientIds : ConnectionId → Identifier)

namespace Service

variable {E : Sqlite}

/-- The `Database` object of the process. -/
abbrev database (st : Service E) : Database E := st.process.server.chat.db

/-- The first process, on a new file. -/
def start (E : Sqlite) (clientIds : ConnectionId → Identifier) : Service E where
  process := WritingServer.start (Database.ofFile E.empty) clientIds

/-- The process goes on, or it ends with what is in its pool and the next one starts. -/
def apply (st : Service E) : ServiceEvent → Option (Service E)
  | .socket e =>
      (st.process.apply e).map fun process =>
        { st with process := process, asked := st.asked ++ e.request.toList }
  | .restart clientIds =>
      some
        { st with
          process := WritingServer.start (Database.ofFile st.database.store) clientIds
          lost := st.lost ++ st.process.pool }

/-- One event and what it leaves. -/
def Step (st : Service E) (e : ServiceEvent) (st' : Service E) : Prop := st.apply e = some st'

/-- Only plain requests are read. -/
def PlainRead (_ : Service E) : ServiceEvent → Prop
  | .socket (.read _ task) => task.Plain
  | _ => True

instance (st : Service E) (e : ServiceEvent) : Decidable (PlainRead st e) :=
  match e with
  | .socket (.read _ task) => inferInstanceAs (Decidable task.Plain)
  | .socket (.readFailed _) | .socket (.run _) | .socket (.transmit _ _ _) | .socket (.complete _ _)
  | .socket (.fail _ _) | .restart _ => inferInstanceAs (Decidable True)

/-- The requests in the pool are plain. -/
def PlainPool (pool : List PoolJob) : Prop := ∀ s task, .request s task ∈ pool → task.Plain

/-- The texts saved, those in the pool and those lost are the texts read.  The rows of the
file are the texts saved, and every room in memory has those of the room. -/
structure Stored (st : Service E) (saved : List TextSendData) : Prop where
  tables : ∃ tv, Refines st.process.server tv ∧ tv.chat.db.history = saved ∧ Replays tv
  plain : PlainPool st.process.pool
  texts : (st.asked.filterMap PoolJob.text).Perm
    (st.process.pool.filterMap PoolJob.text ++ st.lost.filterMap PoolJob.text ++ saved)

variable {st st' : Service E} {saved : List TextSendData}

/-- What the file holds. -/
theorem Stored.history (h : Stored st saved) :
    E.history st.database.store = saved.map rowOf := by
  obtain ⟨tv, hrefines, rfl, -⟩ := h.tables
  exact hrefines.holds.history

theorem become_text (st : WritingServer (sqlDatabase E)) (sv : Server (sqlDatabase E))
    (out : List Output) :
    (st.become sv out).pool.filterMap PoolJob.text = st.pool.filterMap PoolJob.text := by
  rw [WritingServer.become_pool, List.filterMap_append, List.filterMap_map,
    List.append_right_eq_self]
  exact List.filterMap_eq_nil_iff.mpr fun _ _ => rfl

theorem PlainPool.become {st : WritingServer (sqlDatabase E)} (h : PlainPool st.pool)
    (sv : Server (sqlDatabase E)) (out : List Output) : PlainPool (st.become sv out).pool := by
  intro s task hmem
  rw [WritingServer.become_pool] at hmem
  rcases List.mem_append.mp hmem with hold | hnew
  · exact h s task hold
  · obtain ⟨o, -, ho⟩ := List.mem_map.mp hnew
    cases ho

theorem PlainPool.eraseIdx {pool : List PoolJob} (h : PlainPool pool) (i : Nat) :
    PlainPool (pool.eraseIdx i) :=
  fun s task hmem => h s task (List.mem_of_mem_eraseIdx hmem)

/-- The process handles a plain event. -/
theorem Stored.become (hE : E.Lawful) (h : Stored st saved) {pool : List PoolJob} {e : Event}
    (hplain : e.Plain) {sv : Server (sqlDatabase E)} {out : List Output}
    (hstep : st.process.server.apply e = some (sv, out)) (hpool : PlainPool pool)
    (htexts : (st.process.pool.filterMap PoolJob.text).Perm
      (e.text.toList ++ pool.filterMap PoolJob.text))
    (links : ConnectionId → Link) :
    Stored { st with
        process := ({ st.process with pool := pool, links := links } :
          WritingServer (sqlDatabase E)).become sv out }
      (saved ++ e.text.toList) := by
  obtain ⟨tv, hrefines, rfl, hreplays⟩ := h.tables
  obtain ⟨sv', tv', out', hsv, htv, hrefines'⟩ := sameStep_apply hE hrefines hplain
  obtain ⟨rfl, rfl⟩ := Prod.mk.inj (Option.some.inj (hsv.symm.trans hstep))
  have heffect : Server.Effect tv e out' tv' := Server.effect_of_step htv
  refine ⟨⟨tv', ?_, history_of_effect heffect, replays_effect heffect hreplays⟩,
    hpool.become _ _, ?_⟩
  · rw [WritingServer.become_server]
    exact hrefines'
  · rw [become_text]
    refine h.texts.trans ?_
    refine ((htexts.append_right _).append_right _).trans ?_
    rw [List.append_assoc, List.append_assoc, ← List.append_assoc (pool.filterMap _),
      ← List.append_assoc (pool.filterMap _ ++ _)]
    exact List.perm_append_comm

/-- A connection is freed. -/
theorem Stored.free (hE : E.Lawful) (h : Stored st saved) (s : ConnectionId)
    (links : ConnectionId → Link) :
    Stored { st with
        process := ({ st.process with links := links } :
          WritingServer (sqlDatabase E)).freeConnection s } saved := by
  have hfreed := h.become hE (e := .free s) trivial rfl h.plain (List.Perm.refl _) links
  rwa [show (Event.free s).text.toList = [] from rfl, List.append_nil] at hfreed

/-- Something happens on a socket. -/
theorem Stored.withLinks (h : Stored st saved) (links : ConnectionId → Link) :
    Stored { st with process := { st.process with links := links } } saved :=
  ⟨h.tables, h.plain, h.texts⟩

theorem stored_socket (hE : E.Lawful) {e : SocketEvent} {process : WritingServer (sqlDatabase E)}
    (hstep : st.process.apply e = some process) (h : Stored st saved)
    (hplain : PlainRead st (.socket e)) :
    ∃ more, Stored { st with process := process, asked := st.asked ++ e.request.toList }
      (saved ++ more) := by
  have hasked : ∀ {e : SocketEvent}, e.request = none →
      st.asked ++ e.request.toList = st.asked := by
    intro e he
    rw [he]
    exact List.append_nil _
  cases e with
  | read s task =>
      cases hstep
      refine ⟨[], (List.append_nil saved).symm ▸ ⟨h.tables, ?_, ?_⟩⟩
      · intro s' task' hmem
        rcases List.mem_append.mp hmem with hold | hnew
        · exact h.plain s' task' hold
        · cases List.mem_singleton.mp hnew
          exact hplain
      · show ((st.asked ++ [PoolJob.request s task]).filterMap _).Perm
          ((st.process.pool ++ [PoolJob.request s task]).filterMap _ ++ _ ++ _)
        rw [List.filterMap_append, List.filterMap_append]
        refine (h.texts.append_right _).trans ?_
        simp only [List.append_assoc]
        refine List.Perm.append_left _ ?_
        rw [← List.append_assoc]
        exact List.perm_append_comm
  | readFailed s =>
      cases hstep
      rw [hasked rfl]
      exact ⟨[], (List.append_nil saved).symm ▸ h.free hE s st.process.links⟩
  | run i =>
      rw [hasked rfl]
      obtain ⟨job, hjob, hrun⟩ := Option.bind_eq_some_iff.mp hstep
      cases job with
      | request s task =>
          obtain ⟨⟨sv, out⟩, hhandle, rfl⟩ := Option.map_eq_some_iff.mp hrun
          have htask : (Event.handle s task).Plain := h.plain s task (List.mem_of_getElem? hjob)
          exact ⟨_, h.become hE htask hhandle (h.plain.eraseIdx i)
            (Ledger.perm_filterMap_eraseIdx hjob PoolJob.text) st.process.links⟩
      | response o =>
          cases hrun
          refine ⟨[], (List.append_nil saved).symm ▸ ⟨h.tables, h.plain.eraseIdx i, ?_⟩⟩
          have hperm := Ledger.perm_filterMap_eraseIdx hjob PoolJob.text
          exact h.texts.trans ((hperm.append_right _).append_right _)
  | transmit s i n =>
      simp only [WritingServer.apply] at hstep
      rw [hasked rfl]
      split at hstep
      · obtain ⟨socket, -, rfl⟩ := Option.map_eq_some_iff.mp hstep
        exact ⟨[], (List.append_nil saved).symm ▸ h.withLinks _⟩
      · cases hstep
  | complete s i =>
      obtain ⟨link, -, rfl⟩ := Option.map_eq_some_iff.mp hstep
      rw [hasked rfl]
      exact ⟨[], (List.append_nil saved).symm ▸ h.withLinks _⟩
  | fail s i =>
      obtain ⟨socket, -, rfl⟩ := Option.map_eq_some_iff.mp hstep
      rw [hasked rfl]
      exact ⟨[], (List.append_nil saved).symm ▸ h.free hE s _⟩

theorem stored_step (hE : E.Lawful) {e : ServiceEvent} (hstep : Step st e st')
    (h : Stored st saved) (hplain : PlainRead st e) : ∃ more, Stored st' (saved ++ more) := by
  cases e with
  | socket e =>
      obtain ⟨process, hprocess, rfl⟩ := Option.map_eq_some_iff.mp hstep
      exact stored_socket hE hprocess h hplain
  | restart clientIds =>
      cases hstep
      obtain ⟨tv, hrefines, rfl, -⟩ := h.tables
      have hopen : Holds (Database.ofFile st.database.store) tv.chat.db :=
        ⟨rfl, hrefines.holds.logins, hrefines.holds.history, hrefines.holds.plain_logins,
          hrefines.holds.plain_history⟩
      refine ⟨[], (List.append_nil tv.chat.db.history).symm ▸
        ⟨⟨_, .init hopen clientIds, rfl, ?_⟩, ?_, ?_⟩⟩
      · intro r ch hch
        cases hch
      · intro s task hmem
        cases hmem
      · refine h.texts.trans ?_
        show (_ ++ _ ++ _ : List TextSendData).Perm
          ([] ++ (st.lost ++ st.process.pool).filterMap PoolJob.text ++ _)
        rw [List.filterMap_append, List.nil_append]
        exact List.perm_append_comm.append_right _

theorem stored_start (hE : E.Lawful) (clientIds : ConnectionId → Identifier) :
    Stored (start E clientIds) [] where
  tables := ⟨_, refines_first hE clientIds, rfl, fun _ _ hch => nomatch hch⟩
  plain _ _ hmem := nomatch hmem
  texts := .refl _

theorem stored_of_run (hE : E.Lawful) {clientIds : ConnectionId → Identifier}
    {es : List ServiceEvent} (h : Run (Guarded PlainRead Step) (start E clientIds) es st) :
    ∃ saved, Stored st saved := by
  refine @Run.invariant _ _ (Guarded PlainRead Step) _ _ _ (fun st => ∃ saved, Stored st saved) ?_
    h ⟨[], stored_start hE clientIds⟩
  rintro _ _ _ ⟨hplain, hstep⟩ ⟨saved, hstored⟩
  obtain ⟨more, hmore⟩ := stored_step hE hstep hstored hplain
  exact ⟨saved ++ more, hmore⟩

/-- **No text is lost or doubled.**  Over every SQLite that behaves as documented, when only
plain requests are read: in every state, after any number of processes, each text that has
been read is in the file once, or waits in the pool, or was in the pool of a process that
has ended.  Every room loads its texts in the order in which they were saved. -/
theorem saved_once (hE : E.Lawful) {clientIds : ConnectionId → Identifier}
    {es : List ServiceEvent} (h : Run (Guarded PlainRead Step) (start E clientIds) es st) :
    ∃ saved : List TextSendData,
      E.history st.database.store = saved.map rowOf ∧
      (st.asked.filterMap PoolJob.text).Perm
        (st.process.pool.filterMap PoolJob.text ++ st.lost.filterMap PoolJob.text ++ saved) ∧
      ∀ roomId, (st.database.getHistory roomId).2 =
        some (saved.filter (·.roomId = roomId)) := by
  obtain ⟨saved, hstored⟩ := stored_of_run hE h
  refine ⟨saved, hstored.history, hstored.texts, ?_⟩
  intro roomId
  obtain ⟨tv, hrefines, rfl, -⟩ := hstored.tables
  exact congrArg Prod.snd (getHistory_of_holds hE hrefines.holds roomId)

/-! ### Two texts, of which the first is saved before the process ends -/

/-- A text to room 5. -/
def textTo5 (text : String) : Task := ⟨.doTextMsg, .textRequest ⟨ascii "u", 5, ascii text⟩⟩

/-- Both are read, one is saved; the next process reads a join. -/
def twoTexts : List ServiceEvent :=
  [.socket (.read 1 (textTo5 "a")), .socket (.read 1 (textTo5 "b")), .socket (.run 0),
    .restart fun _ => 0, .socket (.read 2 ⟨.doJoinRoom, .joinRoomRequest ⟨5⟩⟩)]

theorem exists_twoTexts : ∃ st : Service memorySqlite,
    Run (Guarded PlainRead Step) (start memorySqlite fun _ => 0) twoTexts st ∧
      st.process.pool = [.request 2 ⟨.doJoinRoom, .joinRoomRequest ⟨5⟩⟩] ∧
      st.lost = [.request 1 (textTo5 "b")] ∧
      st.asked = [.request 1 (textTo5 "a"), .request 1 (textTo5 "b"),
        .request 2 ⟨.doJoinRoom, .joinRoomRequest ⟨5⟩⟩] ∧
      memorySqlite.history st.database.store = [⟨5, ascii "u", ascii "a"⟩].map rowOf := by
  have hend : (twoTexts.foldlM (fun st e => if PlainRead st e then apply st e else none)
      (start memorySqlite fun _ => 0)).map (fun st =>
        (st.process.pool, st.lost, st.asked, memorySqlite.history st.database.store)) =
      some ([.request 2 ⟨.doJoinRoom, .joinRoomRequest ⟨5⟩⟩], [.request 1 (textTo5 "b")],
        [.request 1 (textTo5 "a"), .request 1 (textTo5 "b"),
          .request 2 ⟨.doJoinRoom, .joinRoomRequest ⟨5⟩⟩],
        [⟨5, ascii "u", ascii "a"⟩].map rowOf) := by
    decide +kernel
  obtain ⟨st, hst, hparts⟩ := Option.map_eq_some_iff.mp hend
  simp only [Prod.mk.injEq] at hparts
  obtain ⟨hpool, hlost, hasked, hhistory⟩ := hparts
  exact ⟨st, Run.guarded_of_foldlM hst, hpool, hlost, hasked, hhistory⟩

/-- Room 5 loads the text that was saved. -/
theorem saved_once_twoTexts : ∃ st : Service memorySqlite,
    Run (Guarded PlainRead Step) (start memorySqlite fun _ => 0) twoTexts st ∧
      (st.database.getHistory 5).2 = some [⟨5, ascii "u", ascii "a"⟩] := by
  obtain ⟨st, hrun, hpool, hlost, hasked, -⟩ := exists_twoTexts
  obtain ⟨saved, -, htexts, hload⟩ := saved_once memorySqlite_lawful hrun
  refine ⟨st, hrun, ?_⟩
  rw [hpool, hlost, hasked] at htexts
  have hsaved : [(⟨5, ascii "u", ascii "a"⟩ : TextSendData)].Perm saved := by
    have hboth : ([⟨5, ascii "u", ascii "b"⟩, ⟨5, ascii "u", ascii "a"⟩] : List TextSendData).Perm
        (⟨5, ascii "u", ascii "b"⟩ :: saved) := (List.Perm.swap ..).trans htexts
    exact hboth.cons_inv
  rw [hload, List.perm_singleton.mp hsaved.symm]
  rfl

theorem rowOf_injective : Function.Injective rowOf := by
  rintro ⟨roomId, login, text⟩ ⟨roomId', login', text'⟩ h
  cases h
  rfl

/-- **Whoever joins is handed what has been saved.**  When the pool comes to a join, the
handler returns, and what it hands to the joiner has every text in the file of the room, in
order, whichever process has saved it. -/
theorem sublist_textsTo_join (hE : E.Lawful) {clientIds : ConnectionId → Identifier}
    {es : List ServiceEvent} (h : Run (Guarded PlainRead Step) (start E clientIds) es st)
    {saved : List TextSendData} (hsaved : E.history st.database.store = saved.map rowOf) {i : Nat}
    {s : ConnectionId} {m : JoinRoomRequest}
    (hjob : st.process.pool[i]? = some (.request s ⟨.doJoinRoom, .joinRoomRequest m⟩)) :
    (∃ st', Step st (.socket (.run i)) st') ∧
      (saved.filter (·.roomId = m.roomId)).Sublist
        (textsTo s (st.process.outputs (.run i))) := by
  obtain ⟨saved', hstored⟩ := stored_of_run hE h
  obtain rfl : saved' = saved :=
    rowOf_injective.list_map (hstored.history.symm.trans hsaved)
  obtain ⟨tv, hrefines, rfl, hreplays⟩ := hstored.tables
  obtain ⟨sv', tv', out, hsv, htv, -⟩ :=
    sameStep_apply hE hrefines (e := .handle s ⟨.doJoinRoom, .joinRoomRequest m⟩) trivial
  have heffect : Server.Effect tv (.handle s ⟨.doJoinRoom, .joinRoomRequest m⟩) out tv' :=
    Server.effect_of_step htv
  refine ⟨⟨_, Option.map_eq_some_iff.mpr ⟨_, WritingServer.step_run_request hjob hsv, rfl⟩⟩, ?_⟩
  rw [WritingServer.outputs_run_request hjob hsv]
  cases heffect with
  | join hjoin =>
      obtain ⟨ch, hsub, -, -, hdeliveries⟩ := sublist_of_join hreplays hjoin
      refine hsub.trans ?_
      rw [textsTo_append, textsTo_map_message, hdeliveries, Channel.join, Channel.handedTo_append,
        Channel.handedTo_replay, if_pos rfl, List.append_assoc]
      exact List.sublist_append_left _ _
  | free hfrees => cases hfrees
  | ignore hignored => cases hignored

/-- Connection 2 is handed it. -/
theorem sublist_textsTo_join_twoTexts : ∃ st : Service memorySqlite,
    Run (Guarded PlainRead Step) (start memorySqlite fun _ => 0) twoTexts st ∧
      ⟨5, ascii "u", ascii "a"⟩ ∈ textsTo 2 (st.process.outputs (.run 0)) := by
  obtain ⟨st, hrun, hpool, -, -, hhistory⟩ := exists_twoTexts
  have hjob : st.process.pool[0]? = some (.request 2 ⟨.doJoinRoom, .joinRoomRequest ⟨5⟩⟩) := by
    rw [hpool]
    rfl
  obtain ⟨-, hsub⟩ := sublist_textsTo_join memorySqlite_lawful hrun hhistory hjob
  exact ⟨st, hrun, hsub.subset (List.mem_filter.mpr ⟨List.mem_singleton_self _, rfl⟩)⟩

end Service

end AppChat.Connection
