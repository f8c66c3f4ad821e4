/-
  `Connection.Responses`: which request does a response answer?

  A handler leaves its result in a member of the connection and reads it back when
  it binds the response.  The response is that of its own request as long as what
  the handler reads is what it has written.
-/
import AppChat.Connection.Handlers

set_option autoImplicit false

namespace AppChat.Connection

open Foundation Foundation.SqlText Storage Serialize

/-! ## What a handler can rely on -/

/-- The output answers a request; the others are messages. -/
def Output.isResponse : Output → Bool
  | .message _ => false
  | _ => true

namespace Record

variable {D : DatabaseOps}

/-- A handler that reads its own values adds one row at most, under the id it
generated, and its last action is to post a response. -/
def requires (record : Record D) (a : HandlerAct) : Prop :=
  record.posted = [] ∧
    match a with
    | .addLogins _ clientId _ => record.generated = some clientId ∧ record.added = none
    | .post response => response.isResponse = true
    | _ => True

/-- A read returns what the handler has written, and a join returns `true`. -/
def returns (σ : Shared D) (record : Record D) : (a : HandlerAct) → a.Res → Prop
  | .getLogin _, login => login = record.login
  | .getPassword _, password => password = record.password
  | .getClientId _, clientId => clientId = record.clientId
  | .getRoomId _, roomId => roomId = record.roomId
  | .checkClient login password, clientId =>
      D.checkClient σ.server.chat.db login password = some clientId
  | .joinRoom _ _, flag => flag = true
  | _, _ => True

end Record

/-- What a handler relies on, and what its accesses return then. -/
def promise (D : DatabaseOps) : Machine.Promise (Shared D) (Record D) HandlerAct HandlerAct.Res where
  requires := Record.requires
  returns := Record.returns

/-- What a finished job has posted: one response, to its own request. -/
def Job.Answers {D : DatabaseOps} : Job → Record D → Prop
  | .autorisation s (.inputRequest m), record => ∃ db clientId,
      record.checked = some (db, m.login, m.password, clientId) ∧
      D.checkClient db m.login m.password = some clientId ∧
      record.posted = [.autoResponse s clientId]
  | .registration s (.registerRequest m), record => ∃ clientId,
      record.posted = [.regResponse s clientId] ∧
      (clientId = -1 ∨ record.added = some ⟨m.login, clientId, m.password⟩)
  | .joinRoom s (.joinRoomRequest m), record => record.posted = [.joinRoomResponse s m.roomId true]
  | _, record => record.posted = []

section Programs

variable {D : DatabaseOps}

theorem wp_doAutorisation (s : ConnectionId) (r : Request) :
    (handlers D).wp (promise D) (Job.Answers (.autorisation s r))
      (HandlerProgram.doAutorisation s r) {} := by
  cases r with
  | inputRequest m =>
      simp [HandlerProgram.doAutorisation, Program.perform, Machine.wp, handlers, promise,
        Record.requires, Record.returns, Record.note, Job.Answers, Output.isResponse]
      intro _ _ _ _ _ clientId hcheck _ _ _
      exact hcheck
  | _ => exact ⟨⟨rfl, trivial⟩, fun _ _ _ => rfl⟩

theorem wp_doRegistration (s : ConnectionId) (r : Request) :
    (handlers D).wp (promise D) (Job.Answers (.registration s r))
      (HandlerProgram.doRegistration s r) {} := by
  cases r with
  | registerRequest m =>
      simp [HandlerProgram.doRegistration, Program.perform, Machine.wp, handlers, promise,
        Record.requires, Record.returns, Record.note]
      intro _ _ _ _ found _ _
      rcases eq_or_ne found (-1) with rfl | hfound
      · simp [HandlerProgram.addAccount, HandlerProgram.postRegResponse, Program.perform,
          Machine.wp, Record.requires, Record.returns, Record.note, Job.Answers, Output.isResponse]
      · simp [hfound, HandlerProgram.postRegResponse, Program.perform, Machine.wp,
          Record.requires, Record.returns, Record.note, Job.Answers, Output.isResponse]
  | _ => exact ⟨⟨rfl, trivial⟩, fun _ _ _ => rfl⟩

theorem wp_doJoinRoom (s : ConnectionId) (r : Request) :
    (handlers D).wp (promise D) (Job.Answers (.joinRoom s r))
      (HandlerProgram.doJoinRoom s r) {} := by
  cases r with
  | joinRoomRequest m =>
      simp [HandlerProgram.doJoinRoom, Program.perform, Machine.wp, handlers, promise,
        Record.requires, Record.returns, Record.note, Job.Answers, Output.isResponse]
  | _ => rfl

theorem wp_program (job : Job) :
    (handlers D).wp (promise D) job.Answers job.program {} := by
  cases job with
  | autorisation s r => exact wp_doAutorisation s r
  | registration s r => exact wp_doRegistration s r
  | joinRoom s r => exact wp_doJoinRoom s r
  | free s => exact ⟨⟨rfl, trivial⟩, fun _ _ _ => rfl⟩

end Programs

/-! ## The condition -/

/-- A handler that reads a member finds what it has written there, and an account
is added on an open handle with strings that SQLite takes as two literals. -/
def ReadsOwn {E : Sqlite} (σ : Shared (sqlDatabase E)) (record : Record (sqlDatabase E)) :
    HandlerAct → Prop
  | .getLogin s => (σ.server.connections s).login = record.login
  | .getPassword s => (σ.server.connections s).password = record.password
  | .getClientId s => (σ.server.connections s).clientId = record.clientId
  | .getRoomId s => (σ.server.connections s).roomId = record.roomId
  | .addLogins login _ password =>
      σ.server.database.isOpen = true ∧ WellQuoted login ∧ WellQuoted password
  | _ => True

instance {E : Sqlite} (σ : Shared (sqlDatabase E)) (record : Record (sqlDatabase E))
    (a : HandlerAct) : Decidable (ReadsOwn σ record a) :=
  match a with
  | .getLogin _ => inferInstanceAs (Decidable (_ = _))
  | .getPassword _ => inferInstanceAs (Decidable (_ = _))
  | .getClientId _ => inferInstanceAs (Decidable (_ = _))
  | .getRoomId _ => inferInstanceAs (Decidable (_ = _))
  | .addLogins _ _ _ => inferInstanceAs (Decidable (_ ∧ _ ∧ _))
  | .setLogin _ _ | .setPassword _ _ | .setClientId _ _ | .checkClient _ _ | .getLoginid _
  | .generateClientId | .joinRoom _ _ | .post _ | .freeConnection _ =>
      inferInstanceAs (Decidable True)

section Exec

variable {E : Sqlite} {σ σ' : Shared (sqlDatabase E)} {record : Record (sqlDatabase E)}
  {a : HandlerAct} {r : a.Res}

/-- A guarded action returns what the record promises. -/
theorem returns_of_readsOwn (hguard : ReadsOwn σ record a) (h : σ.exec a = some (σ', r)) :
    record.returns σ a r := by
  cases a with
  | getLogin s =>
      cases h
      exact hguard
  | getPassword s =>
      cases h
      exact hguard
  | getClientId s =>
      cases h
      exact hguard
  | getRoomId s =>
      cases h
      exact hguard
  | checkClient login password =>
      obtain ⟨clientId, hcheck, heq⟩ := Option.map_eq_some_iff.mp h
      cases heq
      exact hcheck
  | joinRoom s roomId =>
      obtain ⟨⟨chat, flag, deliveries⟩, hjoin, heq⟩ := Option.map_eq_some_iff.mp h
      obtain ⟨result, hresult, hparts⟩ := Option.map_eq_some_iff.mp hjoin
      obtain ⟨-, -, -, -, -, hflag, -⟩ := ChannelsManager.join_cases hresult
      cases hparts
      cases heq
      exact hflag
  | _ => trivial

variable (hE : E.Lawful)
include hE

/-- Only `add_logins` touches the database. -/
theorem database_exec (hadd : ∀ login clientId password, a ≠ .addLogins login clientId password)
    (h : σ.exec a = some (σ', r)) : σ'.server.database = σ.server.database := by
  cases a with
  | addLogins login clientId password => exact absurd rfl (hadd login clientId password)
  | checkClient login password =>
      obtain ⟨clientId, -, heq⟩ := Option.map_eq_some_iff.mp h
      cases heq
      rfl
  | joinRoom s roomId =>
      obtain ⟨⟨chat, flag, deliveries⟩, hjoin, heq⟩ := Option.map_eq_some_iff.mp h
      obtain ⟨result, hresult, hparts⟩ := Option.map_eq_some_iff.mp hjoin
      have hdb : result.db = σ.server.database := Server.database_join hE hresult
      cases hparts
      cases heq
      cases result.flag <;> exact hdb
  | _ =>
      cases h
      rfl

/-- A guarded `add_logins` adds one row. -/
theorem accounts_addLogins {login password : Bytes} {clientId : Identifier} {u : Unit}
    (hguard : ReadsOwn σ record (.addLogins login clientId password))
    (h : σ.exec (.addLogins login clientId password) = some (σ', u)) :
    ∃ a p, double a = login ∧ 0 ∉ a ∧ double p = password ∧
      σ'.server.database.isOpen = true ∧
      σ'.server.accounts = σ.server.accounts ++ [⟨a, clientId, p⟩] := by
  obtain ⟨hopen, hlogin, hpassword⟩ := hguard
  obtain ⟨a, -, ha, hza⟩ := hlogin.exists_double
  obtain ⟨p, -, hp, hzp⟩ := hpassword.exists_double
  obtain ⟨st, hadd, hrows, -⟩ := Database.addLogins_of_bodies hE hopen clientId ha hp hza hzp
  obtain ⟨db, hdb, heq⟩ := Option.map_eq_some_iff.mp h
  have hsame : some db = some _ := hdb.symm.trans hadd
  cases hsame
  cases heq
  exact ⟨a, p, ha, hza, hp, hopen, hrows⟩

/-- Rows stay. -/
theorem mem_accounts_exec (hguard : ReadsOwn σ record a) (h : σ.exec a = some (σ', r))
    {row : LoginsRow} (hrow : row ∈ σ.server.accounts) : row ∈ σ'.server.accounts := by
  cases a with
  | addLogins login clientId password =>
      obtain ⟨_, _, _, _, _, _, haccounts⟩ := accounts_addLogins hE hguard h
      rw [haccounts]
      exact List.mem_append_left _ hrow
  | _ =>
      have hdb := database_exec hE (by simp) h
      rw [Server.accounts, hdb]
      exact hrow

end Exec

/-- Besides the responses posted, only messages are handed out. -/
theorem filter_outputs_exec {D : DatabaseOps} {σ σ' : Shared D} {a : HandlerAct} {r : a.Res}
    (hpost : ∀ o, a ≠ .post o) (h : σ.exec a = some (σ', r)) :
    σ'.outputs.filter Output.isResponse = σ.outputs.filter Output.isResponse := by
  have hmessages : ∀ deliveries : List Delivery,
      (deliveries.map Output.message).filter Output.isResponse = [] := by
    intro deliveries
    rw [List.filter_eq_nil_iff]
    intro o ho
    obtain ⟨d, -, rfl⟩ := List.mem_map.mp ho
    simp [Output.isResponse]
  cases a with
  | post o => exact absurd rfl (hpost o)
  | checkClient login password =>
      obtain ⟨clientId, -, heq⟩ := Option.map_eq_some_iff.mp h
      cases heq
      rfl
  | addLogins login clientId password =>
      obtain ⟨db, -, heq⟩ := Option.map_eq_some_iff.mp h
      cases heq
      rfl
  | joinRoom s roomId =>
      obtain ⟨⟨chat, flag, deliveries⟩, -, heq⟩ := Option.map_eq_some_iff.mp h
      cases heq
      split <;> simp [Shared.modify, hmessages]
  | freeConnection s =>
      cases h
      simp [Server.freeConnection, hmessages]
  | _ =>
      cases h
      rfl

theorem note_posted {D : DatabaseOps} {σ : Shared D} {record : Record D} {a : HandlerAct}
    {r : a.Res} (hpost : ∀ o, a ≠ .post o) : (record.note σ a r).posted = record.posted := by
  cases a with
  | post o => exact absurd rfl (hpost o)
  | joinRoom s roomId =>
      simp only [Record.note]
      split <;> rfl
  | _ => rfl

theorem note_added {D : DatabaseOps} {σ : Shared D} {record : Record D} {a : HandlerAct}
    {r : a.Res} (hadd : ∀ login clientId password, a ≠ .addLogins login clientId password) :
    (record.note σ a r).added = record.added := by
  cases a with
  | addLogins login clientId password => exact absurd rfl (hadd login clientId password)
  | joinRoom s roomId =>
      simp only [Record.note]
      split <;> rfl
  | _ => rfl

/-! ## The whole pool -/

section Pool

variable {D : DatabaseOps}

/-- The responses handed out are those the handlers have posted. -/
def Posted (p : Handlers D) : Prop :=
  (p.shared.outputs.filter Output.isResponse).Perm (p.threads.flatMap (·.record.posted))

theorem posted_step {p p' : Handlers D} {e : PoolEvent Job} {Q : Job → Record D → Prop}
    (hstep : (handlers D).Step p e p') (hsound : (handlers D).Sound (promise D) Q p)
    (h : Posted p) : Posted p' := by
  cases hstep with
  | spawn => simpa [Posted, Machine.begin, handlers] using h
  | @step σ σ' before after task a next record r hexec =>
      have hrequires := (Machine.Sound.requires hsound).2
      unfold Posted at h ⊢
      simp only [List.flatMap_append, List.flatMap_cons] at h ⊢
      by_cases hpost : ∃ o, a = .post o
      · obtain ⟨o, rfl⟩ := hpost
        cases hexec
        have hresponse : o.isResponse = true := hrequires
        have hmove : (σ.outputs.filter Output.isResponse ++ [o]).Perm
            (before.flatMap (·.record.posted) ++
              ((record.posted ++ [o]) ++ after.flatMap (·.record.posted))) := by
          refine (h.append_right [o]).trans ?_
          simp only [List.append_assoc]
          exact ((List.perm_append_comm).append_left _).append_left _
        simpa [List.filter_append, hresponse, handlers, Record.note] using hmove
      · have hfilter := filter_outputs_exec (fun o ho => hpost ⟨o, ho⟩) hexec
        have hrecord : ((handlers D).note σ record a r).posted = record.posted :=
          note_posted (fun o ho => hpost ⟨o, ho⟩)
        rw [hfilter, hrecord]
        exact h

end Pool

/-! ## The rows the handlers have added -/

section Rows

variable {E : Sqlite}

/-- The table has the login and the id of every row that a handler has added. -/
def RowsKept (p : Handlers (sqlDatabase E)) : Prop :=
  ∀ thread ∈ p.threads, ∀ added, thread.record.added = some added →
    ∃ row ∈ p.shared.server.accounts, double row.login = added.login ∧ row.loginId = added.loginId

theorem rowsKept_step (hE : E.Lawful) {p p' : Handlers (sqlDatabase E)} {e : PoolEvent Job}
    (hstep : Guarded (Machine.Meets ReadsOwn) (handlers (sqlDatabase E)).Step p e p')
    (h : RowsKept p) : RowsKept p' := by
  obtain ⟨hmeets, hstep⟩ := hstep
  cases hstep with
  | spawn =>
      intro thread hthread added hadded
      rcases List.mem_append.mp hthread with hold | hnew
      · exact h thread hold added hadded
      · rw [List.mem_singleton] at hnew
        subst hnew
        cases hadded
  | @step σ σ' before after task a next record r hexec =>
      have hguard := hmeets.guard
      have hkept : ∀ thread ∈ before ++ ⟨task, .act a next, record⟩ :: after,
          ∀ added, thread.record.added = some added →
            ∃ row ∈ σ'.server.accounts,
              double row.login = added.login ∧ row.loginId = added.loginId := by
        intro thread hthread added hadded
        obtain ⟨row, hrow, hsame⟩ := h thread hthread added hadded
        exact ⟨row, mem_accounts_exec hE hguard hexec hrow, hsame⟩
      intro thread hthread added hadded
      rcases List.mem_append.mp hthread with hbefore | hrest
      · exact hkept thread (List.mem_append_left _ hbefore) added hadded
      · rcases List.mem_cons.mp hrest with rfl | hafter
        · by_cases hadd : ∃ login clientId password, a = .addLogins login clientId password
          · obtain ⟨login, clientId, password, rfl⟩ := hadd
            obtain ⟨v, _, hv, -, -, -, haccounts⟩ := accounts_addLogins hE hguard hexec
            cases hadded
            rw [haccounts]
            exact ⟨_, List.mem_append_right _ (List.mem_singleton_self _), hv, rfl⟩
          · have hsame : ((handlers (sqlDatabase E)).note σ record a r).added = record.added :=
              note_added fun login clientId password heq => hadd ⟨login, clientId, password, heq⟩
            exact hkept ⟨task, .act a next, record⟩ (by simp) added (hsame.symm.trans hadded)
        · exact hkept thread (List.mem_append_right _ (List.mem_cons_of_mem _ hafter)) added hadded

/-- What a finished job has posted when its responses are its own: the id that
`check_client` found for its login and password, the id in a row of its login or
-1, and the room it asked for. -/
def Job.Answered (sv : Server (sqlDatabase E)) : Job → Record (sqlDatabase E) → Prop
  | .autorisation s (.inputRequest m), record => ∃ db clientId,
      record.checked = some (db, m.login, m.password, clientId) ∧
      (sqlDatabase E).checkClient db m.login m.password = some clientId ∧
      record.posted = [.autoResponse s clientId]
  | .registration s (.registerRequest m), record => ∃ clientId,
      record.posted = [.regResponse s clientId] ∧
      (clientId = -1 ∨
        ∃ row ∈ sv.accounts, double row.login = m.login ∧ row.loginId = clientId)
  | .joinRoom s (.joinRoomRequest m), record => record.posted = [.joinRoomResponse s m.roomId true]
  | _, record => record.posted = []

theorem answered_of_answers {sv : Server (sqlDatabase E)} {job : Job}
    {record : Record (sqlDatabase E)} (h : job.Answers record)
    (hrows : ∀ added, record.added = some added →
      ∃ row ∈ sv.accounts, double row.login = added.login ∧ row.loginId = added.loginId) :
    job.Answered sv record := by
  cases job with
  | registration s r =>
      cases r with
      | registerRequest m =>
          obtain ⟨clientId, hposted, hid⟩ := h
          exact ⟨clientId, hposted, hid.imp_right fun hadded => hrows _ hadded⟩
      | _ => exact h
  | autorisation s r => cases r <;> exact h
  | joinRoom s r => cases r <;> exact h
  | free s => exact h

/-- **Every response is that of its own request.**  In every run in which the
handlers read what they have written, each finished handler has posted one
response with the result of its own request, and nothing else has been posted. -/
theorem answered_of_readsOwn (hE : E.Lawful) {sv : Server (sqlDatabase E)}
    {es : List (PoolEvent Job)} {p : Handlers (sqlDatabase E)}
    (h : Run (Guarded (Machine.Meets ReadsOwn) (handlers (sqlDatabase E)).Step) ⟨⟨sv, []⟩, []⟩
      es p) :
    Posted p ∧
      ∀ thread ∈ p.threads, thread.Finished →
        thread.task.Answered p.shared.server thread.record := by
  let Inv : Handlers (sqlDatabase E) → Prop := fun p =>
    (handlers (sqlDatabase E)).Sound (promise _) Job.Answers p ∧ Posted p ∧ RowsKept p
  have hinit : Inv ⟨⟨sv, []⟩, []⟩ :=
    ⟨Machine.sound_init _, List.Perm.nil, fun _ hthread => absurd hthread List.not_mem_nil⟩
  have hend : Inv p := by
    refine h.invariant ?_ hinit
    rintro q e q' hstep ⟨hsound, hposted, hrows⟩
    exact ⟨Machine.sound_step wp_program (fun _ _ _ _ _ => returns_of_readsOwn) hstep hsound,
      posted_step hstep.2 hsound hposted, rowsKept_step hE hstep hrows⟩
  obtain ⟨hsound, hposted, hrows⟩ := hend
  refine ⟨hposted, ?_⟩
  intro thread hthread hfinished
  exact answered_of_answers (hsound.finished hthread hfinished) (hrows thread hthread)

end Rows

/-- A join, a registration and a log in of one connection, interleaved: each is answered
once, and the log in finds the account of the registration. -/
theorem answered_of_readsOwn_three :
    let sv : Server (sqlDatabase memorySqlite) :=
      Server.init (⟨true, memorySqlite.empty⟩ : Database memorySqlite) fun _ => 7
    ∃ (es : List (PoolEvent Job)) (p : Handlers (sqlDatabase memorySqlite)),
      Run (Guarded (Machine.Meets ReadsOwn) (handlers (sqlDatabase memorySqlite)).Step)
        ⟨⟨sv, []⟩, []⟩ es p ∧
      (p.shared.outputs.filter Output.isResponse).Perm
        [.joinRoomResponse 1 5 true, .regResponse 1 1, .autoResponse 1 1] ∧
      p.Quiet ∧ ∀ thread ∈ p.threads, thread.task.Answered p.shared.server thread.record := by
  intro sv
  let es : List (PoolEvent Job) :=
    [.spawn (.joinRoom 1 (.joinRoomRequest ⟨5⟩)),
      .spawn (.registration 1 (.registerRequest ⟨ascii "u", ascii "pw"⟩)),
      .spawn (.autorisation 1 (.inputRequest ⟨ascii "u", ascii "pw"⟩)),
      .step 1, .step 2, .step 0, .step 1, .step 2, .step 1, .step 0, .step 2, .step 1, .step 1,
      .step 1, .step 0, .step 1, .step 1, .step 2, .step 1, .step 1, .step 1, .step 1, .step 2,
      .step 1, .step 2, .step 2, .step 1, .step 2]
  have hend : (es.foldlM ((handlers (sqlDatabase memorySqlite)).applyGuarded ReadsOwn)
      ⟨⟨sv, []⟩, []⟩).map (fun p => (p.threads.flatMap (·.record.posted), decide p.Quiet)) =
      some ([.joinRoomResponse 1 5 true, .regResponse 1 1, .autoResponse 1 1], true) := by
    decide +kernel
  obtain ⟨p, hp, hparts⟩ := Option.map_eq_some_iff.mp hend
  obtain ⟨hposted, hquiet⟩ := Prod.mk.inj hparts
  have hrun := Machine.run_of_applyGuarded _ hp
  obtain ⟨hresponses, hanswered⟩ := answered_of_readsOwn memorySqlite_lawful hrun
  have hfinished : p.Quiet := of_decide_eq_true hquiet
  refine ⟨es, p, hrun, ?_, hfinished, ?_⟩
  · rw [← hposted]
    exact hresponses
  · intro thread hthread
    exact hanswered thread hthread (hfinished thread hthread)

/-- Two joins pipelined on one connection: both answers name the second room. -/
theorem not_answered_joins :
    ¬ ∀ (sv : Server (sqlDatabase memorySqlite)) (es : List (PoolEvent Job))
        (p : Handlers (sqlDatabase memorySqlite)),
      Run (handlers (sqlDatabase memorySqlite)).Step ⟨⟨sv, []⟩, []⟩ es p →
        ∀ thread ∈ p.threads, thread.Finished →
          thread.task.Answered p.shared.server thread.record := by
  intro h
  let sv : Server (sqlDatabase memorySqlite) :=
    Server.init (⟨true, memorySqlite.empty⟩ : Database memorySqlite) fun _ => 7
  let es : List (PoolEvent Job) :=
    [.spawn (.joinRoom 1 (.joinRoomRequest ⟨5⟩)), .spawn (.joinRoom 1 (.joinRoomRequest ⟨6⟩)),
      .step 0, .step 1, .step 0, .step 0]
  have hrun : ∃ p, Run (handlers (sqlDatabase memorySqlite)).Step ⟨⟨sv, []⟩, []⟩ es p ∧
      ∃ thread ∈ p.threads, thread.Finished ∧ thread.task = .joinRoom 1 (.joinRoomRequest ⟨5⟩) ∧
        thread.record.posted = [.joinRoomResponse 1 6 true] := by
    have hfirst : (es.foldlM (handlers (sqlDatabase memorySqlite)).apply ⟨⟨sv, []⟩, []⟩).bind
        (fun p => p.threads.head?.map fun thread =>
          (thread.task, thread.rest, thread.record.posted)) =
        some (.joinRoom 1 (.joinRoomRequest ⟨5⟩), .ret (), [.joinRoomResponse 1 6 true]) := rfl
    obtain ⟨p, hp, hhead⟩ := Option.bind_eq_some_iff.mp hfirst
    obtain ⟨thread, hthread, hparts⟩ := Option.map_eq_some_iff.mp hhead
    simp only [Prod.mk.injEq] at hparts
    exact ⟨p, (Run.iff_foldlM.mpr hp).mono fun _ _ _ => Machine.step_of_apply _, thread,
      List.mem_of_head? hthread, hparts.2.1, hparts.1, hparts.2.2⟩
  obtain ⟨p, hrun, thread, hthread, hfinished, htask, hposted⟩ := hrun
  have hanswered := h sv es p hrun thread hthread hfinished
  rw [htask] at hanswered
  have hown : thread.record.posted = [.joinRoomResponse 1 5 true] := hanswered
  rw [hposted] at hown
  simp at hown

end AppChat.Connection
